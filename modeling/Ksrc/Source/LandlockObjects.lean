import Mathlib.Logic.Function.Basic
import Ksrc.Source.Security

/-!
# Landlock objects tied to inodes

Source: `landlock/src/fs.c` (`get_inode_object`, `release_inode`, `hook_sb_delete`) and
`object.c` (`landlock_create_object`, `landlock_put_object`). A step of a thread is a section
under the lock of an inode, a section under the lock of an object, or one access to a counter
or to `inode_sec->object` outside of them. Objects that readers may still see are not given
out again, as `kfree_rcu` has it.
-/
namespace Ksrc.Source

/-- `i_state`: `I_NEW`, none of the flags, `I_FREEING` or `I_WILL_FREE`. -/
inductive InodeState where
  | new
  | live
  | freeing
  deriving DecidableEq, Repr

/-- `struct inode` and `struct landlock_inode_security`. -/
structure TiedInode where
  count : Nat
  state : InodeState
  object : Option Nat
  deriving DecidableEq, Repr

/-- `struct landlock_object`; the lock names the thread that holds it. -/
structure LandlockObject where
  usage : Nat
  lock : Option Nat
  underobj : Option Nat
  deriving DecidableEq, Repr

/-- `i_sb` and `s_inodes`. -/
structure Superblocks where
  superblock : Nat → Nat
  inodes : Nat → List Nat
  listed : ∀ sb inode, superblock inode = sb → inode ∈ inodes sb

/-- Where a thread is; each name says what it has just done. -/
inductive ObjectThread where
  | idle
  -- `get_inode_object`
  | lookingUp (inode : Nat)
  | found (inode object : Nat)
  | goingAway (inode object : Nat)
  | missed (inode : Nat)
  | created (inode object : Nat)
  -- `landlock_put_object` and `release_inode`
  | putting (object : Nat)
  | puttingLast (object : Nat)
  | releasing (object : Nat)
  | releaseTook (object inode : Nat)
  | releaseCounted (object inode : Nat)
  | releaseCleared (object inode : Nat)
  | releasePut (object inode : Nat)
  -- `hook_sb_delete`, with the inodes it has not reached and `prev_inode`
  | walking (sb : Nat) (rest : List Nat) (prev : Option Nat)
  | referenced (sb inode : Nat) (rest : List Nat) (prev : Option Nat)
  | pinned (sb inode object : Nat) (rest : List Nat) (prev : Option Nat)
  | hookTook (sb inode object : Nat) (rest : List Nat) (prev : Option Nat)
  | hookCleared (sb inode object : Nat) (rest : List Nat) (prev : Option Nat)
  | passed (sb inode : Nat) (rest : List Nat) (prev : Option Nat)
  | waiting (sb : Nat)
  deriving DecidableEq, Repr

structure InodeObjects where
  inode : Nat → TiedInode
  object : Nat → Option LandlockObject
  inodeRefs : Nat → Nat
  thread : Nat → ObjectThread

namespace InodeObjects

variable (s : InodeObjects)

def setThread (t : Nat) (phase : ObjectThread) : InodeObjects :=
  { s with thread := Function.update s.thread t phase }

def setObject (object : Nat) (value : Option LandlockObject) : InodeObjects :=
  { s with object := Function.update s.object object value }

def setInode (inode : Nat) (value : TiedInode) : InodeObjects :=
  { s with inode := Function.update s.inode inode value }

/-- `ihold` and `__iget`. -/
def iget (inode : Nat) : InodeObjects :=
  s.setInode inode { s.inode inode with count := (s.inode inode).count + 1 }

def iput (inode : Nat) : InodeObjects :=
  s.setInode inode { s.inode inode with count := (s.inode inode).count - 1 }

/-- `rcu_assign_pointer(landlock_inode(inode)->object, object)`. -/
def assign (inode : Nat) (object : Option Nat) : InodeObjects :=
  s.setInode inode { s.inode inode with object }

def setInodeRefs (sb value : Nat) : InodeObjects :=
  { s with inodeRefs := Function.update s.inodeRefs sb value }

/-- `get_inode_object`; `new` is what `landlock_create_object` allocates. -/
def getStep (t : Nat) (new : Option Nat) : Option InodeObjects :=
  match s.thread t with
  | .lookingUp inode =>
    match (s.inode inode).object with
    | some object => some (s.setThread t (.found inode object))
    | none => some (s.setThread t (.missed inode))
  | .found inode object =>
    (s.object object).map fun o =>
      -- `refcount_inc_not_zero`
      if o.usage = 0 then s.setThread t (.goingAway inode object)
      else (s.setObject object (some { o with usage := o.usage + 1 })).setThread t .idle
  | .goingAway inode object =>
    -- waits for the lock of the object and gives it back
    (s.object object).bind fun o =>
      if o.lock = none then some (s.setThread t (.lookingUp inode)) else none
  | .missed inode =>
    match new with
    | none => some (s.setThread t .idle)
    | some object =>
      if s.object object = none then
        some ((s.setObject object (some { usage := 1, lock := none, underobj := some inode })).setThread
          t (.created inode object))
      else none
  | .created inode object =>
    -- under `i_lock`
    if (s.inode inode).object ≠ none then
      some ((s.setObject object none).setThread t (.lookingUp inode))
    else some (((s.iget inode).assign inode (some object)).setThread t .idle)
  | _ => none

variable (fs : Superblocks)

/-- `landlock_put_object`, with `refcount_dec_and_lock`, and `release_inode`. -/
def putStep (t : Nat) : Option InodeObjects :=
  match s.thread t with
  | .putting object =>
    (s.object object).map fun o =>
      if o.usage = 1 then s.setThread t (.puttingLast object)
      else (s.setObject object (some { o with usage := o.usage - 1 })).setThread t .idle
  | .puttingLast object =>
    (s.object object).bind fun o =>
      if o.lock ≠ none then none
      else if o.usage = 1 then
        some ((s.setObject object (some { o with usage := 0, lock := some t })).setThread t
          (.releasing object))
      else some ((s.setObject object (some { o with usage := o.usage - 1 })).setThread t .idle)
  | .releasing object =>
    (s.object object).map fun o =>
      match o.underobj with
      | none => (s.setObject object (some { o with lock := none })).setThread t .idle
      | some inode =>
        (s.setObject object (some { o with underobj := none })).setThread t
          (.releaseTook object inode)
  | .releaseTook object inode =>
    let sb := fs.superblock inode
    (s.object object).map fun o =>
      ((s.setInodeRefs sb (s.inodeRefs sb + 1)).setObject object
        (some { o with lock := none })).setThread t (.releaseCounted object inode)
  | .releaseCounted object inode =>
    some ((s.assign inode none).setThread t (.releaseCleared object inode))
  | .releaseCleared object inode =>
    some ((s.iput inode).setThread t (.releasePut object inode))
  | .releasePut _ inode =>
    let sb := fs.superblock inode
    some ((s.setInodeRefs sb (s.inodeRefs sb - 1)).setThread t .idle)
  | _ => none

/-- `iput(prev_inode)`, where there is one. -/
def iputPrev (prev : Option Nat) : InodeObjects :=
  match prev with
  | none => s
  | some inode => s.iput inode

/-- `hook_sb_delete`. -/
def hookStep (t : Nat) : Option InodeObjects :=
  match s.thread t with
  | .walking sb [] prev => some ((s.iputPrev prev).setThread t (.waiting sb))
  | .walking sb (inode :: rest) prev =>
    if (s.inode inode).count = 0 then some (s.setThread t (.walking sb rest prev))
    else some (s.setThread t (.referenced sb inode rest prev))
  | .referenced sb inode rest prev =>
    -- under `i_lock`
    if (s.inode inode).state ≠ .live then some (s.setThread t (.walking sb rest prev))
    else
      match (s.inode inode).object with
      | none => some (s.setThread t (.walking sb rest prev))
      | some object => some ((s.iget inode).setThread t (.pinned sb inode object rest prev))
  | .pinned sb inode object rest prev =>
    -- under the lock of the object
    (s.object object).bind fun o =>
      if o.lock ≠ none then none
      else if o.underobj = some inode then
        some ((s.setObject object (some { o with underobj := none })).setThread t
          (.hookTook sb inode object rest prev))
      else some (s.setThread t (.passed sb inode rest prev))
  | .hookTook sb inode object rest prev =>
    some ((s.assign inode none).setThread t (.hookCleared sb inode object rest prev))
  | .hookCleared sb inode _ rest prev =>
    some ((s.iput inode).setThread t (.passed sb inode rest prev))
  | .passed sb inode rest prev =>
    some ((s.iputPrev prev).setThread t (.walking sb rest (some inode)))
  | .waiting sb => if s.inodeRefs sb = 0 then some (s.setThread t .idle) else none
  | _ => none

/-- The next step of a thread inside one of the functions. -/
def threadStep (t : Nat) (new : Option Nat) : Option InodeObjects :=
  match s.thread t with
  | .idle => none
  | .lookingUp _ | .found _ _ | .goingAway _ _ | .missed _ | .created _ _ => s.getStep t new
  | .putting _ | .puttingLast _ | .releasing _ | .releaseTook _ _ | .releaseCounted _ _
  | .releaseCleared _ _ | .releasePut _ _ => s.putStep fs t
  | _ => s.hookStep t

end InodeObjects

end Ksrc.Source

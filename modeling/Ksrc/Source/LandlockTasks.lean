import Ksrc.Source.LandlockFs

/-!
# Landlock system calls, credentials and ptrace scoping

Source: `landlock/src/syscalls.c`, `cred.c`, `ptrace.c`. A task has credentials of its own.
Credentials that are dropped wait for `hook_cred_free`, which the kernel runs some time
later. File descriptors are the references of open files; the copies from user space, flags
and the check that Landlock is initialized are left out.
-/
namespace Ksrc.Source

open Library

/-- `struct file`, as far as `get_path_from_fd` reads it. -/
structure OpenFile where
  isRuleset : Bool
  mount : Mount
  dentry : Dentry

/-- `get_path_from_fd`: the dentry of the path. -/
def getPathFromFd (file : Option OpenFile) : Except Errno Dentry :=
  match file with
  | none => .error .EBADF
  | some f =>
    if f.isRuleset ∨ f.mount.internal ∨ f.dentry.noUser ∨ f.dentry.inode = none ∨
        f.dentry.isNouserOrPrivate then .error .EBADFD
    else .ok f.dentry

/-- The content check of `landlock_create_ruleset(2)`, and the ruleset. -/
def sysLandlockCreateRuleset (handledAccessFs : U64) (allocs : List Bool) :
    Except Refusal LandlockRuleset :=
  if handledAccessFs ||| landlockMaskAccessFs.setWidth 64 ≠ landlockMaskAccessFs.setWidth 64 then
    .error (.err .EINVAL)
  else (landlockCreateRuleset (handledAccessFs.setWidth 16) allocs).1

/-- `landlock_add_rule(2)` on a ruleset, for the answer of `get_inode_object`. -/
def sysLandlockAddRule (color : RbInsertColor) (ruleset : LandlockRuleset) (allowedAccess : U64)
    (file : Option OpenFile) (object : Except Errno Nat) (allocs : List Bool) :
    Except Refusal LandlockRuleset :=
  let mask : U64 := (ruleset.fsAccessMasks.headD 0).setWidth 64
  if allowedAccess = 0 then .error (.err .ENOMSG)
  else if allowedAccess ||| mask ≠ mask then .error (.err .EINVAL)
  else
    match getPathFromFd file with
    | .error e => .error (.err e)
    | .ok dentry =>
      (landlockAppendFsRule color ruleset dentry (allowedAccess.setWidth 16) object allocs).1

/-- Rulesets of open files, the domains of the credentials of each task, and the domains of
credentials that wait to be freed. -/
structure LandlockSystem where
  heap : LandlockHeap
  files : List Nat
  tasks : Heap (Option Nat)
  dying : List Nat

/-- `landlock_restrict_self(2)` behind its check of privileges, for a task with a domain. -/
def sysLandlockRestrictSelf (color : RbInsertColor) (s : LandlockSystem) (task : Nat)
    (domain : Option Nat) (ruleset newDom newHierarchy : Nat) (allocs : List Bool) :
    Option (Except Refusal Nat × LandlockSystem) := do
  let heap ← landlockGetRuleset s.heap (some ruleset)
  match kzalloc allocs with
  | (false, _) =>
    -- `prepare_creds` fails
    let heap ← landlockPutRuleset heap (some ruleset)
    some (.error (.err .ENOMEM), { s with heap })
  | (true, allocs) =>
    -- `hook_cred_prepare`
    let heap ← landlockGetRuleset heap domain
    let (result, heap) ←
      landlockMergeRuleset color heap domain (some ruleset) newDom newHierarchy allocs
    match result with
    | .error e =>
      -- `abort_creds` drops the prepared credentials
      let heap ← landlockPutRuleset heap (some ruleset)
      some (.error e, { s with heap, dying := domain.toList ++ s.dying })
    | .ok dom =>
      let heap ← landlockPutRuleset heap domain
      let heap ← landlockPutRuleset heap (some ruleset)
      -- `commit_creds` drops the old credentials
      some (.ok dom, { s with heap, tasks := s.tasks.set task (some dom)
                              dying := domain.toList ++ s.dying })

inductive LandlockAct where
  | createRuleset (handledAccessFs : U64) (new : Nat) (allocs : List Bool)
  | addRule (ruleset : Nat) (allowedAccess : U64) (file : Option OpenFile)
      (object : Except Errno Nat) (allocs : List Bool)
  | closeRuleset (ruleset : Nat)
  | restrictSelf (task ruleset newDom newHierarchy : Nat) (permitted : Bool) (allocs : List Bool)
  | fork (task child : Nat)
  | exit (task : Nat)
  | freeCred (domain : Nat)

/-- What the kernel does for an action, `none` where it uses memory that is not there. -/
def LandlockAct.run (color : RbInsertColor) (s : LandlockSystem) :
    LandlockAct → Option (Except Refusal Nat × LandlockSystem)
  | .createRuleset handledAccessFs new allocs =>
    match sysLandlockCreateRuleset handledAccessFs allocs with
    | .error e => some (.error e, s)
    | .ok r =>
      some (.ok new, { s with heap := { s.heap with rulesets := s.heap.rulesets.set new r }
                              files := new :: s.files })
  | .addRule ruleset allowedAccess file object allocs =>
    match s.heap.rulesets.get ruleset with
    | none => none
    | some r =>
      match sysLandlockAddRule color r allowedAccess file object allocs with
      | .error e => some (.error e, s)
      | .ok r' =>
        some (.ok 0, { s with heap := { s.heap with rulesets := s.heap.rulesets.set ruleset r' } })
  | .closeRuleset ruleset =>
    (landlockPutRuleset s.heap (some ruleset)).map fun heap =>
      (.ok 0, { s with heap, files := s.files.erase ruleset })
  | .restrictSelf task ruleset newDom newHierarchy permitted allocs =>
    if permitted then
      match s.tasks.get task with
      | none => none
      | some domain => sysLandlockRestrictSelf color s task domain ruleset newDom newHierarchy allocs
    else some (.error (.err .EPERM), s)
  | .fork task child =>
    match s.tasks.get task with
    | none => none
    | some domain =>
      -- `hook_cred_prepare`
      (landlockGetRuleset s.heap domain).map fun heap =>
        (.ok child, { s with heap, tasks := s.tasks.set child domain })
  | .exit task =>
    match s.tasks.get task with
    | none => none
    | some domain =>
      some (.ok 0, { s with tasks := s.tasks.free task, dying := domain.toList ++ s.dying })
  | .freeCred domain =>
    -- `hook_cred_free`
    (landlockPutRuleset s.heap (some domain)).map fun heap =>
      (.ok 0, { s with heap, dying := s.dying.erase domain })

/-- The walk of `domain_scope_le`; a chain has at most a node for each layer. -/
def scopeWalk (hs : Hierarchies) (target : Option Nat) : Nat → Option Nat → Option Bool
  | _, none => some false
  | 0, some _ => none
  | turns + 1, some walker =>
    if some walker = target then some true
    else
      match hs.get walker with
      | none => none
      | some node => scopeWalk hs target turns node.parent

/-- `domain_scope_le`. -/
def domainScopeLe (h : LandlockHeap) (parent child : Option Nat) : Option Bool :=
  match parent with
  | none => some true
  | some parent =>
    match child with
    | none => some false
    | some child =>
      match h.rulesets.get parent, h.rulesets.get child with
      | some parent, some child =>
        scopeWalk h.hierarchies parent.hierarchy landlockMaxNumLayers child.hierarchy
      | _, _ => none

/-- `task_ptrace`, for the domains of the two tasks. -/
def taskPtrace (h : LandlockHeap) (parent child : Option Nat) : Option (Except Errno Unit) :=
  match parent with
  | none => some (.ok ())
  | some _ =>
    (domainScopeLe h parent child).map fun isScoped => if isScoped then .ok () else .error .EPERM

end Ksrc.Source

import Mathlib.Logic.Function.Basic
import Ksrc.Source.LuaModules

/-!
# The modules in the Lua VMs

Source: `lua/lsm.c` (`lua_modules_index`, `lua_modules_free`, `lvm_get_from_task`, `lvm_pool_get`,
`lvm_pool_put`, `task_blob_free`, `lua_lsm_module_unregister` and what it calls) and `lua/lsm_defs.h`
(`LUA_LSM_DEFINEx`). The contexts that call hooks and the one that holds `modules_mutex` are cut where
others may come in between. A call of a hook is a read section of `modules_ss`; the call of a Lua
function may call hooks again, each in a section of its own with the same VM.
-/
namespace Ksrc.Source

/-- Who has a VM: a task on the list of tasks, `irq_lvms` of a CPU, an idle task, a task whose
`task_blob_free` runs, the pool of a CPU, or nobody. -/
inductive LvmOwner where
  | task
  | cpu
  | swapper
  | exiting
  | pool
  | closed
  deriving DecidableEq, Repr

/-- A VM: `modules` is its `_MODULES`, by name the module whose table is there. -/
structure LvmState where
  owner : LvmOwner
  modules : Name → Option Nat
  dirty : Bool

def LvmState.blank : LvmState := { owner := .closed, modules := fun _ => none, dirty := false }

/-- What a read section does: it uses a VM, has seen that a module is live, runs `module_load`, has
put the table in `_MODULES`, counts the modules of a VM off (`before` are the modules there were when
the walk began), or has emptied the VM. -/
inductive SectionWork where
  | none
  | using (vm : Nat)
  | asked (vm : Nat) (module : Nat)
  | loading (vm : Nat) (module : Nat)
  | stored (vm : Nat) (module : Nat)
  | exiting (vm : Nat) (before : Nat) (visited : List Nat)
  | reset (vm : Nat)
  deriving DecidableEq, Repr

/-- A context: `old` where its section began before the `synchronize_srcu` that waits. -/
inductive HookContext where
  | outside
  | inside (old : Bool) (work : SectionWork)
  deriving DecidableEq, Repr

/-- Where `lua_lsm_module_unregister` is after the first `synchronize_srcu`: in a pass over VMs, or at
a read of `nloaded` before one. -/
inductive RemovePass where
  | beforeTasks
  | tasks
  | beforeSoftirq
  | softirq
  | beforeSwapper
  | swapper
  | beforeRetry
  | retry (i : Nat)
  | afterRetry (i : Nat)
  | afterSleep (i : Nat)
  | last
  deriving DecidableEq, Repr

/-- The context that holds `modules_mutex`. -/
inductive UnregisterStage where
  | idle
  | leaving (module : Nat)
  | removing (module : Nat) (pass : RemovePass) (count : Int) (nbusy : Nat)
  | deleted (module : Nat)
  deriving DecidableEq, Repr

/-- The modules, the VMs and the contexts; a module is a pointer to it. -/
structure LuaSystem where
  module : Nat → LuaLsmModule
  listed : Nat → Bool
  freed : Nat → Bool
  allocated : Nat
  vm : Nat → LvmState
  built : Nat
  context : Nat → HookContext
  contexts : Nat
  unregister : UnregisterStage

namespace SectionWork

/-- The VM whose `refcount` the section holds. -/
def uses : SectionWork → Option Nat
  | .using vm => some vm
  | .asked vm _ => some vm
  | .loading vm _ => some vm
  | .stored vm _ => some vm
  | _ => Option.none

end SectionWork

namespace HookContext

def work : HookContext → SectionWork
  | .outside => .none
  | .inside _ work => work

def old : HookContext → Bool
  | .outside => false
  | .inside old _ => old

/-- `synchronize_srcu` begins to wait. -/
def age : HookContext → HookContext
  | .outside => .outside
  | .inside _ work => .inside true work

/-- Go on with other work. -/
def goes (c : HookContext) (work : SectionWork) : HookContext :=
  match c with
  | .outside => .outside
  | .inside old _ => .inside old work

end HookContext

namespace LuaSystem

def setContext (s : LuaSystem) (c : Nat) (context : HookContext) : LuaSystem :=
  { s with context := Function.update s.context c context }

def setWork (s : LuaSystem) (c : Nat) (work : SectionWork) : LuaSystem :=
  s.setContext c ((s.context c).goes work)

def setVm (s : LuaSystem) (vm : Nat) (lvm : LvmState) : LuaSystem :=
  { s with vm := Function.update s.vm vm lvm }

def setModule (s : LuaSystem) (module : Nat) (m : LuaLsmModule) : LuaSystem :=
  { s with module := Function.update s.module module m }

def addLoaded (s : LuaSystem) (module : Nat) (n : Int) : LuaSystem :=
  s.setModule module { s.module module with nloaded := (s.module module).nloaded + n }

/-- Whether a VM has an entry under the name of a module. -/
def holds (s : LuaSystem) (vm module : Nat) : Bool :=
  ((s.vm vm).modules (s.module module).name).isSome

/-- `_MODULES[module->name] = entry`. -/
def setEntry (s : LuaSystem) (vm module : Nat) (entry : Option Nat) : LuaSystem :=
  s.setVm vm { s.vm vm with
    modules := Function.update (s.vm vm).modules (s.module module).name entry }

/-- Whether the `refcount` of a VM is held. -/
def inUse (s : LuaSystem) (vm : Nat) : Bool :=
  decide (∃ c < s.contexts, (s.context c).work.uses = some vm)

/-- Whether `synchronize_srcu` returns. -/
def synchronized (s : LuaSystem) : Bool := decide (∀ c < s.contexts, (s.context c).old = false)

/-- Whether the list has a module of a name. -/
def nameTaken (s : LuaSystem) (name : Name) : Bool :=
  decide (∃ m < s.allocated, s.listed m = true ∧ (s.module m).name = name)

end LuaSystem

/-- A step of a context or of the one that holds `modules_mutex`; `nbusy` is not initialised. -/
inductive LuaSystemAction where
  | register (module : LuaLsmModule)
  | enter (context : Nat)
  | leave (context : Nat)
  | get (context vm : Nat)
  | put (context : Nat)
  | ask (context module : Nat)
  | load (context : Nat)
  | fail (context : Nat)
  | store (context : Nat)
  | count (context : Nat)
  | build (owner : LvmOwner)
  | take (vm : Nat) (owner : LvmOwner)
  | exit (context vm : Nat)
  | countOff (context module : Nat)
  | reset (context : Nat)
  | release (context : Nat) (full : Bool)
  | unregister (module : Nat)
  | synced (nbusy : Nat)
  | visit (vm : Nat) (busy : Bool)
  | advance
  | finish

/-- The owners that `lvm_get` finds a VM with. -/
def LvmOwner.runs : LvmOwner → Bool
  | .task => true
  | .cpu => true
  | .swapper => true
  | _ => false

section Modules

/-- The section of `lua_lsm_module_register`. -/
def registerStep (s : LuaSystem) (module : LuaLsmModule) : Option LuaSystem :=
  if s.unregister = .idle ∧ s.nameTaken module.name = false then
    some { s.setModule s.allocated { module with state := .live, nloaded := 0 } with
      listed := Function.update s.listed s.allocated true
      allocated := s.allocated + 1 }
  else none

/-- The test of `module->state` in the dispatcher. -/
def askStep (s : LuaSystem) (c module : Nat) : Option LuaSystem :=
  match (s.context c).work with
  | .using vm =>
    if s.listed module = true ∧ (s.module module).state = .live then
      some (s.setWork c (.asked vm module))
    else none
  | _ => none

/-- `lua_getfield` of `_MODULES`: `lua_modules_index` only runs where there is no entry. -/
def loadStep (s : LuaSystem) (c : Nat) : Option LuaSystem :=
  match (s.context c).work with
  | .asked vm module =>
    if s.holds vm module then some (s.setWork c (.using vm))
    else some ((s.setVm vm { s.vm vm with dirty := true }).setWork c (.loading vm module))
  | _ => none

/-- `module_load` fails. -/
def failStep (s : LuaSystem) (c : Nat) : Option LuaSystem :=
  match (s.context c).work with
  | .loading vm _ => some (s.setWork c (.using vm))
  | _ => none

/-- `lua_rawset` of the table. -/
def storeStep (s : LuaSystem) (c : Nat) : Option LuaSystem :=
  match (s.context c).work with
  | .loading vm module => some ((s.setEntry vm module (some module)).setWork c (.stored vm module))
  | _ => none

/-- `atomic_inc` of `nloaded`. -/
def countStep (s : LuaSystem) (c : Nat) : Option LuaSystem :=
  match (s.context c).work with
  | .stored vm module => some ((s.addLoaded module 1).setWork c (.using vm))
  | _ => none

end Modules

section Vms

/-- `lvm_build_lua_state` for an owner. -/
def buildStep (s : LuaSystem) (owner : LvmOwner) : Option LuaSystem :=
  if owner.runs then
    some { s.setVm s.built { LvmState.blank with owner } with built := s.built + 1 }
  else none

/-- `lvm_pool_get`. -/
def takeStep (s : LuaSystem) (vm : Nat) (owner : LvmOwner) : Option LuaSystem :=
  if (s.vm vm).owner = .pool ∧ owner.runs then some (s.setVm vm { s.vm vm with owner }) else none

/-- `task_blob_free`, after the hook: a VM that is not dirty is not walked. -/
def exitStep (s : LuaSystem) (c vm : Nat) : Option LuaSystem :=
  match s.context c with
  | .inside _ .none =>
    if (s.vm vm).owner = .task ∧ s.inUse vm = false then
      let s := s.setVm vm { s.vm vm with owner := .exiting }
      if (s.vm vm).dirty then some (s.setWork c (.exiting vm s.allocated []))
      else some (s.setWork c (.reset vm))
    else none
  | _ => none

/-- One module in the walk of `lua_modules_free`. -/
def countOffStep (s : LuaSystem) (c module : Nat) : Option LuaSystem :=
  match (s.context c).work with
  | .exiting vm before visited =>
    if s.listed module = true ∧ module ∉ visited then
      let s' := if s.holds vm module then s.addLoaded module (-1) else s
      some (s'.setWork c (.exiting vm before (module :: visited)))
    else none
  | _ => none

/-- `lvm_vm_reset`, after a walk that met every module that was on the list all the time. -/
def resetStep (s : LuaSystem) (c : Nat) : Option LuaSystem :=
  match (s.context c).work with
  | .exiting vm before visited =>
    if ∀ m < before, s.listed m = true → m ∈ visited then
      some ((s.setVm vm { s.vm vm with modules := fun _ => none, dirty := false }).setWork c (.reset vm))
    else none
  | _ => none

/-- `lvm_pool_put`; a full pool closes the VM. -/
def releaseStep (s : LuaSystem) (c : Nat) (full : Bool) : Option LuaSystem :=
  match (s.context c).work with
  | .reset vm =>
    some ((s.setVm vm { s.vm vm with owner := if full then .closed else .pool }).setWork c .none)
  | _ => none

end Vms

section Unregister

/-- `lua_lsm_module_unregister` up to the first `synchronize_srcu`. -/
def unregisterStep (s : LuaSystem) (module : Nat) : Option LuaSystem :=
  if s.unregister = .idle ∧ s.listed module = true then
    let m := s.module module
    let s := if m.state = .live then s.setModule module { m with state := .going } else s
    some { s with unregister := .leaving module, context := fun c => (s.context c).age }
  else none

/-- A `synchronize_srcu` returns; after the second one the module is freed. -/
def syncedStep (s : LuaSystem) (nbusy : Nat) : Option LuaSystem :=
  if s.synchronized then
    match s.unregister with
    | .leaving module => some { s with unregister := .removing module .beforeTasks 0 nbusy }
    | .deleted module =>
      some { s with unregister := .idle, freed := Function.update s.freed module true }
    | _ => none
  else none

/-- The owners that a pass visits. -/
def RemovePass.visits : RemovePass → LvmOwner → Bool
  | .tasks, .task => true
  | .retry _, .task => true
  | .softirq, .cpu => true
  | .swapper, .swapper => true
  | _, _ => false

/-- `task_remove_module` and `softirq_lvm_remove_module`: a task that runs elsewhere is busy, as is a VM
that is used; on a CPU nothing runs in between. -/
def visitStep (s : LuaSystem) (vm : Nat) (busy : Bool) : Option LuaSystem :=
  match s.unregister with
  | .removing module pass count nbusy =>
    if pass.visits (s.vm vm).owner then
      if busy || s.inUse vm then
        match (s.vm vm).owner with
        | .task => some { s with unregister := .removing module pass count (nbusy + 1) }
        | .swapper => some s
        | _ => none
      else if s.holds vm module then
        some { s.setEntry vm module none with unregister := .removing module pass (count + 1) nbusy }
      else some s
    else none
  | _ => none

/-- Where the passes go on; a pass may meet fewer VMs than there are. -/
def advanceStep (s : LuaSystem) : Option LuaSystem :=
  match s.unregister with
  | .removing module pass count nbusy =>
    let nloaded := (s.module module).nloaded
    let goes := fun pass nbusy => some { s with unregister := .removing module pass count nbusy }
    match pass with
    | .beforeTasks => if nloaded > 0 then goes .tasks 0 else goes .beforeSoftirq nbusy
    | .tasks => goes .beforeSoftirq nbusy
    | .beforeSoftirq => goes (if count < nloaded then .softirq else .beforeSwapper) nbusy
    | .softirq => goes .beforeSwapper nbusy
    | .beforeSwapper => goes (if count < nloaded then .swapper else .beforeRetry) nbusy
    | .swapper => goes .beforeRetry nbusy
    | .beforeRetry => if count < nloaded ∧ nbusy > 0 then goes (.retry 1) 0 else goes .last nbusy
    | .retry i => goes (.afterRetry i) nbusy
    | .afterRetry i => goes (if count = nloaded ∨ nbusy = 0 then .last else .afterSleep i) nbusy
    | .afterSleep i =>
      if count = nloaded ∨ 5 ≤ i then goes .last nbusy else goes (.retry (i + 1)) 0
    | .last => none
  | _ => none

/-- `atomic_sub_return`, and what follows. -/
def finishStep (s : LuaSystem) : Option LuaSystem :=
  match s.unregister with
  | .removing module .last count _ =>
    let s := s.addLoaded module (-count)
    if (s.module module).nloaded = 0 then
      some { s with
        listed := Function.update s.listed module false
        unregister := .deleted module
        context := fun c => (s.context c).age }
    else
      some { s.setModule module { s.module module with state := .zombie } with unregister := .idle }
  | _ => none

end Unregister

/-- One step. -/
def luaSystemStep (s : LuaSystem) : LuaSystemAction → Option LuaSystem
  | .register module => registerStep s module
  | .enter c =>
    if c < s.contexts ∧ s.context c = .outside then some (s.setContext c (.inside false .none)) else none
  | .leave c =>
    match s.context c with
    | .inside _ .none => some (s.setContext c .outside)
    | _ => none
  | .get c vm =>
    match s.context c with
    | .inside _ .none => if (s.vm vm).owner.runs then some (s.setWork c (.using vm)) else none
    | _ => none
  | .put c =>
    match (s.context c).work with
    | .using _ => some (s.setWork c .none)
    | _ => none
  | .ask c module => askStep s c module
  | .load c => loadStep s c
  | .fail c => failStep s c
  | .store c => storeStep s c
  | .count c => countStep s c
  | .build owner => buildStep s owner
  | .take vm owner => takeStep s vm owner
  | .exit c vm => exitStep s c vm
  | .countOff c module => countOffStep s c module
  | .reset c => resetStep s c
  | .release c full => releaseStep s c full
  | .unregister module => unregisterStep s module
  | .synced nbusy => syncedStep s nbusy
  | .visit vm busy => visitStep s vm busy
  | .advance => advanceStep s
  | .finish => finishStep s

end Ksrc.Source

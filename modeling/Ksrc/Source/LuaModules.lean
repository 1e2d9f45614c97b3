import Mathlib.Data.Finset.Basic
import Ksrc.Source.PolicyFile

/-!
# The modules of the Lua LSM

Source: `lua/lsm.c` (`lua_lsm_module_register`, `lua_lsm_module_unregister`) and `lua/lsm.h`. The list
of hooks comes from a header of the kernel and is a parameter, as is what the Lua library answers to
the calls of a registration. No two modules on the list have the same name, so a module is written to
by its name.
-/
namespace Ksrc.Source

/-- `enum lua_lsm_module_state`. -/
inductive LmsState where
  | live
  | coming
  | going
  | zombie
  deriving DecidableEq, Repr

/-- `struct lua_lsm_module`; `hookfuncs` holds the bits that are set. -/
structure LuaLsmModule where
  name : Name
  author : Option Name
  description : Option Name
  license : Option Name
  version : Int
  state : LmsState
  hookfuncs : Finset Nat
  nhooks : Nat
  nloaded : Int
  deriving DecidableEq

/-- `lsm_modules`, the counters of `lua_lsm_hook_stats` and the count of `lua_lsm_modules_active`. -/
structure LuaRegistry where
  modules : List LuaLsmModule
  nhooks : Nat → Int
  active : Int

/-- What a call of the Lua library returns other than 0. -/
inductive LuaStatus where
  | errRun
  | errSyntax
  | errMem
  | errErr
  | other
  deriving DecidableEq, Repr

/-- The error of `luaL_loadbuffer_wrap`. -/
def loadbufferError : LuaStatus → Errno
  | .errMem => .ENOMEM
  | .errSyntax => .EDOM
  | _ => .EINVAL

/-- The error of `lua_pcall_wrap`. -/
def pcallError : LuaStatus → Errno
  | .errMem => .ENOMEM
  | .errRun => .ENOEXEC
  | .errErr => .EFAULT
  | _ => .EINVAL

/-- A key of the table that a chunk returns. `lua_tostring` puts the text of a number in its place;
`tostring` says whether that string can be allocated. -/
inductive LuaKey where
  | string (s : Name)
  | number (text : Name) (tostring : Bool)
  | other
  deriving DecidableEq, Repr

/-- A value of the table; `dup` says whether `kstrdup` of a string succeeds. -/
inductive LuaField where
  | string (s : Name) (dup : Bool)
  | number (n : Int)
  | function
  | other
  deriving DecidableEq, Repr

/-- The entries of a table in the order of `lua_next`. -/
abbrev LuaTable := List (LuaKey × LuaField)

/-- How the call of a chunk ends; `message` says whether `lua_tostring` of the error returns. -/
inductive LuaCall where
  | done
  | failed (status : LuaStatus) (message : Bool)
  | endless
  deriving DecidableEq, Repr

/-- How `lua_dump` ends: its writer may raise an error. -/
inductive LuaDump where
  | done
  | failed
  | raised
  deriving DecidableEq, Repr

/-- The hooks of the kernel by their numbers, and those that `lua_lsm_hook_supported` refuses. -/
structure LuaHooks where
  names : List Name
  supported : Nat → Bool

/-- What the Lua library and the allocators answer in a registration; `push` and `pushresult` are
`lua_pushcfunction` and `luaL_pushresult`, which raise an error where they cannot allocate. -/
structure RegisterEnv where
  vm : Bool
  push : Bool
  load : Option LuaStatus
  call : LuaCall
  result : Option LuaTable
  kzalloc : Bool
  recompile : Option LuaStatus
  dump : LuaDump
  pushresult : Bool
  kmalloc : Bool

/-- The fields of a module while the table is read; the name may be missing. -/
structure ModuleFields where
  name : Option Name
  author : Option Name
  description : Option Name
  license : Option Name
  version : Int
  hookfuncs : Finset Nat
  nhooks : Nat
  deriving DecidableEq

def ModuleFields.zero : ModuleFields :=
  { name := none, author := none, description := none, license := none, version := 0,
    hookfuncs := ∅, nhooks := 0 }

/-- A field that must be a string: kept as it was where it is not one. -/
def stringField (old : Option Name) : LuaField → Option Name
  | .string s dup => if dup then some (cString s) else none
  | _ => old

/-- One entry of the table. -/
def readField (hooks : LuaHooks) (fields : ModuleFields) (key : Name) (value : LuaField) :
    Except Errno ModuleFields :=
  if key = cstr "name".toList then .ok { fields with name := stringField fields.name value }
  else if key = cstr "author".toList then
    .ok { fields with author := stringField fields.author value }
  else if key = cstr "description".toList then
    .ok { fields with description := stringField fields.description value }
  else if key = cstr "license".toList then
    .ok { fields with license := stringField fields.license value }
  else if key = cstr "version".toList then
    match value with
    | .number n => .ok { fields with version := n }
    | _ => .ok fields
  else
    match hooks.names.findIdx? (· = key) with
    | none => .ok fields
    | some i =>
      if ¬ hooks.supported i then .error .EOPNOTSUPP
      else if value = .function then
        .ok { fields with nhooks := fields.nhooks + 1, hookfuncs := insert i fields.hookfuncs }
      else .ok fields

/-- How the table of a module is read: `fault` where an error is raised, which nothing catches, and
`endless` where the loop does not end. -/
inductive FieldsRead where
  | fault
  | endless
  | error (e : Errno)
  | done (fields : ModuleFields)

/-- The body of the loop over the table. -/
def readEntry (hooks : LuaHooks) (fields : ModuleFields) (entry : LuaKey × LuaField) : FieldsRead :=
  match entry.1 with
  | .other => .done fields
  | .number text tostring =>
    if ¬ tostring then .fault
    else
      match readField hooks fields (cString text) entry.2 with
      | .error e => .error e
      | .ok fields => .done fields
  | .string key =>
    match readField hooks fields (cString key) entry.2 with
    | .error e => .error e
    | .ok fields => .done fields

/-- Where `lua_next` goes on from the key that the body has left on the stack: after the entry of that
key, an error where there is none. -/
def luaNext (table : LuaTable) (place : Nat) : LuaKey → Option Nat
  | .number text _ => (table.findIdx? fun entry => entry.1 = .string text).map (· + 1)
  | _ => some (place + 1)

/-- The loop over the table, and the places that it visits. -/
def readFields (hooks : LuaHooks) (table : LuaTable) :
    Nat → Nat → ModuleFields → FieldsRead × List Nat
  | 0, _, _ => (.endless, [])
  | rounds + 1, place, fields =>
    match table[place]? with
    | none => (.done fields, [])
    | some entry =>
      match readEntry hooks fields entry with
      | .done fields =>
        match luaNext table place entry.1 with
        | none => (.fault, [place])
        | some after =>
          let (result, places) := readFields hooks table rounds after fields
          (result, place :: places)
      | result => (result, [place])

/-- The table is read from its first entry; a loop that ends has a round for each entry at most. -/
def readTable (hooks : LuaHooks) (table : LuaTable) : FieldsRead × List Nat :=
  readFields hooks table (table.length + 1) 0 .zero

/-- How a registration ends; `fault` and `endless` do not return. -/
inductive RegisterResult where
  | fault
  | endless
  | error (e : Errno)
  | ok
  deriving DecidableEq, Repr

/-- The section of `lua_lsm_module_register` under `modules_mutex`. -/
def registerSection (r : LuaRegistry) (module : LuaLsmModule) : Bool × LuaRegistry :=
  if r.modules.any (fun m => module.name = m.name) then (true, r)
  else
    (false,
      { modules := r.modules ++ [{ module with state := .live }]
        nhooks := fun i => if i ∈ module.hookfuncs then r.nhooks i + 1 else r.nhooks i
        active := r.active + 1 })

/-- `lua_lsm_module_register` from the test of `module->name`. -/
def registerFields (env : RegisterEnv) (r : LuaRegistry) (fields : ModuleFields) :
    RegisterResult × LuaRegistry :=
  match fields.name with
  | none => (.error .ENOMEM, r)
  | some name =>
    match env.recompile with
    | some status => (.error (loadbufferError status), r)
    | none =>
      match env.dump with
      | .raised => (.fault, r)
      | .failed => (.error .EFAULT, r)
      | .done =>
        if ¬ env.pushresult then (.fault, r)
        -- `err` is 0 since the second `luaL_loadbuffer_wrap`
        else if ¬ env.kmalloc then (.ok, r)
        else
          match registerSection r
              { name, author := fields.author, description := fields.description,
                license := fields.license, version := fields.version, state := .coming,
                hookfuncs := fields.hookfuncs, nhooks := fields.nhooks, nloaded := 0 } with
          | (true, r) => (.error .EEXIST, r)
          | (false, r) => (.ok, r)

/-- `lua_lsm_module_register` from the walk of the table. -/
def registerTable (hooks : LuaHooks) (env : RegisterEnv) (r : LuaRegistry) (table : LuaTable) :
    RegisterResult × LuaRegistry :=
  match (readTable hooks table).1 with
  | .fault => (.fault, r)
  | .endless => (.endless, r)
  | .error e => (.error e, r)
  | .done fields => registerFields env r fields

/-- `lua_lsm_module_register`. -/
def luaLsmModuleRegister (hooks : LuaHooks) (env : RegisterEnv) (r : LuaRegistry) :
    RegisterResult × LuaRegistry :=
  if ¬ env.vm then (.error .ENOMEM, r)
  else if ¬ env.push then (.fault, r)
  else
    match env.load with
    | some status => (.error (loadbufferError status), r)
    | none =>
      match env.call with
      | .endless => (.endless, r)
      | .failed status message => if message then (.error (pcallError status), r) else (.fault, r)
      | .done =>
        match env.result with
        | none => (.error .EBADF, r)
        | some table =>
          if ¬ env.kzalloc then (.error .ENOMEM, r) else registerTable hooks env r table

namespace LuaRegistry

/-- The module of a name. -/
def find (r : LuaRegistry) (name : Name) : Option LuaLsmModule :=
  r.modules.find? (fun m => m.name = name)

/-- Write to the module of a name. -/
def update (r : LuaRegistry) (name : Name) (f : LuaLsmModule → LuaLsmModule) : LuaRegistry :=
  { r with modules := r.modules.map fun m => if m.name = name then f m else m }

/-- `list_del_rcu` of the module of a name. -/
def del (r : LuaRegistry) (name : Name) : LuaRegistry :=
  { r with modules := r.modules.filter fun m => m.name ≠ name }

end LuaRegistry

/-- The first section of `lua_lsm_module_unregister`: `none` where the module is not found. -/
def unregisterBegin (r : LuaRegistry) (name : Name) : Option LuaRegistry :=
  match r.find name with
  | none => none
  | some module =>
    if module.state = .live then
      let r := r.update name fun m => { m with state := .going }
      some { r with
        active := r.active - 1
        nhooks := fun i => if i ∈ module.hookfuncs then r.nhooks i - 1 else r.nhooks i }
    else some r

/-- The last section: `count` is what was removed from the VMs. -/
def unregisterEnd (r : LuaRegistry) (name : Name) (count : Int) : Except Errno Unit × LuaRegistry :=
  match r.find name with
  | none => (.error .ENOENT, r)
  | some module =>
    let left := module.nloaded - count
    if left = 0 then (.ok (), r.del name)
    else (.error .EBUSY, r.update name fun m => { m with nloaded := left, state := .zombie })

/-- `lua_lsm_module_unregister` where the VMs are left alone meanwhile; `count` is what was removed
from them. -/
def luaLsmModuleUnregister (r : LuaRegistry) (name : Name) (count : Int) :
    Except Errno Unit × LuaRegistry :=
  match unregisterBegin r name with
  | none => (.error .ENOENT, r)
  | some r => unregisterEnd r name count

/-- The tests before the modules are asked: the static key is off, or no module has the hook. -/
def hookSkipped (r : LuaRegistry) (i : Nat) : Bool := decide (r.active ≤ 0) || decide (r.nhooks i = 0)

end Ksrc.Source

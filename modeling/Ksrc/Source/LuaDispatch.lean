import Ksrc.Library.OperandStack
import Ksrc.Source.LuaModules

/-!
# The dispatcher of the Lua hooks

Source: `lua/lsm_defs.h` (`LUA_PCALL`, `LUA_LSM_DEFINEx` and the readers of the results) and
`lua/lsm.c` (`module_load`, `lua_modules_index`). A stack is that of the C function that runs, its top
first. The functions of the Lua library do what its documentation says to the stack; what a chunk, a
table or a function of a module gives is a parameter.
-/
namespace Ksrc.Source
open Library

/-- A value of a program. A number is its `lua_Integer`, a string has one where `lua_tonumber` makes
one of it. -/
inductive LuaTValue where
  | nil
  | boolean (b : Bool)
  | number (n : Int)
  | string (s : Name) (n : Option Int)
  | table
  | function
  | userdata
  | lightuserdata
  | thread
  deriving DecidableEq, Repr

/-- A slot of the stack: what the dispatcher itself puts there, or a value. -/
inductive LuaSlot where
  | traceback
  | thread
  | fenv
  | modules
  | value (v : LuaTValue)
  deriving DecidableEq, Repr

/-- How a call of a function ends. -/
inductive CallOutcome where
  | raises (status : LuaStatus) (error : LuaTValue)
  | returns (values : List LuaTValue)
  deriving DecidableEq, Repr

/-- What a module does in a VM: its chunk is parsed and called, its table has a value under the
name of the hook, which is called. -/
structure LuaBehaviour where
  loadbuffer : Option LuaStatus
  chunk : CallOutcome
  field : LuaTValue
  hook : CallOutcome
  deriving DecidableEq

/-- The stack of the function that runs; the names in `_MODULES`; whether the VM is dirty; whether
`CURR_ENV` is set. `counted` has a name for each `atomic_inc` of its `nloaded`, `called` one for each
function of a hook that is called. -/
structure LuaVm where
  stack : List LuaSlot
  loaded : List Name
  dirty : Bool
  currEnv : Bool
  counted : List Name
  called : List Name
  deriving DecidableEq

/-- An error that no protected call catches: a value that is no table is indexed, one that is no
function is called, or an index is not valid. -/
inductive LuaFault where
  | index
  | call
  | stack
  deriving DecidableEq, Repr

section Library

def luaGettop (vm : LuaVm) : Nat := vm.stack.length

def luaPush (vm : LuaVm) (v : LuaSlot) : LuaVm := { vm with stack := v :: vm.stack }

def luaSettop (vm : LuaVm) (top : Nat) : LuaVm :=
  { vm with stack := OperandStack.settop (.value .nil) vm.stack top }

def luaPop (vm : LuaVm) (n : Nat) : LuaVm := { vm with stack := vm.stack.drop n }

def luaPushvalue (vm : LuaVm) (i : Int) : Except LuaFault LuaVm :=
  match OperandStack.valueAt vm.stack i with
  | some v => .ok (luaPush vm v)
  | none => .error .stack

def luaRemove (vm : LuaVm) (i : Int) : LuaVm := { vm with stack := OperandStack.remove vm.stack i }

def luaInsert (vm : LuaVm) (i : Int) : LuaVm := { vm with stack := OperandStack.insert vm.stack i }

/-- Whether a slot is a table. -/
def LuaSlot.isTable : LuaSlot → Bool
  | .fenv => true
  | .modules => true
  | .value .table => true
  | _ => false

def luaIstable (vm : LuaVm) (i : Int) : Bool :=
  match OperandStack.valueAt vm.stack i with
  | some v => v.isTable
  | none => false

def luaIsfunction (vm : LuaVm) (i : Int) : Bool :=
  match OperandStack.valueAt vm.stack i with
  | some (.value .function) => true
  | some .traceback => true
  | _ => false

/-- `lua_getfield` of a table that has a value under the key. -/
def luaGetfield (vm : LuaVm) (i : Int) (found : LuaTValue) : Except LuaFault LuaVm :=
  match OperandStack.valueAt vm.stack i with
  | some v => if v.isTable then .ok (luaPush vm (.value found)) else .error .index
  | none => .error .stack

/-- A table gets `n` values from the top: a value, or a key and a value. -/
def luaSettable (vm : LuaVm) (i : Int) (n : Nat) : Except LuaFault LuaVm :=
  match OperandStack.valueAt vm.stack i with
  | some v => if v.isTable then .ok (luaPop vm n) else .error .index
  | none => .error .stack

def luaSetfield (vm : LuaVm) (i : Int) : Except LuaFault LuaVm := luaSettable vm i 1

def luaSetmetatable (vm : LuaVm) (i : Int) : Except LuaFault LuaVm := luaSettable vm i 1

/-- `lua_setfield` of `CURR_ENV` in the registry. -/
def luaSetCurrEnv (vm : LuaVm) (isSet : Bool) : LuaVm := luaPop { vm with currEnv := isSet } 1

/-- A thread and a function have an environment. -/
def LuaSlot.hasFenv : LuaSlot → Bool
  | .thread => true
  | .traceback => true
  | .value .function => true
  | .value .userdata => true
  | .value .thread => true
  | _ => false

def luaGetfenv (vm : LuaVm) (i : Int) : Except LuaFault LuaVm :=
  match OperandStack.valueAt vm.stack i with
  | some v => if v.hasFenv then .ok (luaPush vm .fenv) else .ok (luaPush vm (.value .nil))
  | none => .error .stack

/-- The table on the top becomes an environment. -/
def luaSetfenv (vm : LuaVm) (i : Int) : Except LuaFault LuaVm :=
  if luaIstable vm (-1) then
    match OperandStack.valueAt vm.stack i with
    | some _ => .ok (luaPop vm 1)
    | none => .error .stack
  else .error .stack

/-- The results that a caller asks for; `none` is `LUA_MULTRET`. -/
def adjustResults (values : List LuaTValue) : Option Nat → List LuaTValue
  | none => values
  | some n => (values ++ List.replicate n LuaTValue.nil).take n

/-- `lua_pcall`: the function is below its arguments. -/
def luaPcall (vm : LuaVm) (nargs : Nat) (nresults : Option Nat) (errfunc : Int)
    (outcome : CallOutcome) : Except LuaFault (Option LuaStatus × LuaVm) :=
  if OperandStack.valueAt vm.stack errfunc = some .traceback then
    match vm.stack.drop nargs with
    | .value .function :: rest =>
      match outcome with
      | .raises status error => .ok (some status, { vm with stack := .value error :: rest })
      | .returns values =>
        .ok (none, { vm with
          stack := ((adjustResults values nresults).map LuaSlot.value).reverse ++ rest })
    | _ => .error .call
  else .error .stack

def luaTypeIsBoolean (vm : LuaVm) (i : Int) : Bool :=
  match OperandStack.valueAt vm.stack i with
  | some (.value (.boolean _)) => true
  | _ => false

def luaTypeIsNil (vm : LuaVm) (i : Int) : Bool :=
  match OperandStack.valueAt vm.stack i with
  | some (.value .nil) => true
  | _ => false

def luaToboolean (vm : LuaVm) (i : Int) : Bool :=
  match OperandStack.valueAt vm.stack i with
  | none => false
  | some (.value .nil) => false
  | some (.value (.boolean b)) => b
  | some _ => true

/-- The integer that a value converts to; 0 where it does not. -/
def LuaTValue.integer : LuaTValue → Int
  | .number n => n
  | .string _ (some n) => n
  | _ => 0

def luaTointeger (vm : LuaVm) (i : Int) : Int :=
  match OperandStack.valueAt vm.stack i with
  | some (.value v) => v.integer
  | _ => 0

end Library

section Loading

/-- `module_load`: the error, or the table on the top. -/
def moduleLoad (behaviour : LuaBehaviour) (vm : LuaVm) : Except LuaFault (Option Errno × LuaVm) := do
  let vm := luaPush vm .fenv
  let vm ← luaPushvalue vm (-1)
  -- `lua_replace` of the environment of the function
  let vm := luaPop vm 1
  let vm := luaPush (luaPush vm (.value .lightuserdata)) (.value .lightuserdata)
  let vm ← luaSettable vm (-3) 2
  let vm := luaPush vm (.value .userdata)
  let vm ← luaSetfield vm (-2)
  -- `env.shared` with its metatable
  let vm := luaPush (luaPush vm (.value .table)) (.value .table)
  let vm ← luaSetfield (luaPush vm (.value .function)) (-2)
  let vm ← luaSetfield (luaPush vm (.value .function)) (-2)
  let vm ← luaSetmetatable vm (-2)
  let vm ← luaSetfield vm (-2)
  -- the metatable of `env`
  let vm := luaPush vm (.value .table)
  let vm ← luaSetfield (luaPush vm (.value .table)) (-2)
  let vm ← luaSetfield (luaPush vm (.value .function)) (-2)
  let vm ← luaSetmetatable vm (-2)
  let vm := luaPush vm .traceback
  match behaviour.loadbuffer with
  | some status => .ok (some (loadbufferError status), luaPop vm 2)
  | none =>
    let vm := luaPush vm (.value .function)
    let vm ← luaPushvalue vm (-3)
    let vm ← luaSetfenv vm (-2)
    let (status, vm) ← luaPcall vm 0 (some 1) (-2) behaviour.chunk
    match status with
    | some status =>
      -- `lua_pcall_wrap` takes the error off
      let vm := luaPop vm 1
      .ok (some (pcallError status), luaPop vm 2)
    | none =>
      if luaIstable vm (-1) then
        let vm := luaRemove vm (-2)
        let vm := luaRemove vm (-2)
        .ok (none, vm)
      else .ok (some .EBADF, luaPop vm 3)

/-- `lua_rawset` of `_MODULES` for a name. -/
def luaRawsetModules (vm : LuaVm) (i : Int) (name : Name) : Except LuaFault LuaVm :=
  if OperandStack.valueAt vm.stack i = some .modules then
    .ok { luaPop vm 2 with loaded := name :: vm.loaded }
  else .error .index

/-- `lua_modules_index` on a stack of its own: how many results are on the top. -/
def luaModulesIndex (lsmModules : List LuaLsmModule) (code : Name → LuaBehaviour) (key : Name)
    (vm : LuaVm) : Except LuaFault (Nat × LuaVm) :=
  match lsmModules.find? (fun m => m.name = key) with
  | none => .ok (0, vm)
  | some module => do
    let vm := { vm with dirty := true }
    let (err, vm) ← moduleLoad (code module.name) vm
    match err with
    | some _ => .ok (0, vm)
    | none =>
      let vm := luaInsert vm (-2)
      let vm ← luaPushvalue vm (-2)
      let vm ← luaRawsetModules vm 1 key
      .ok (1, { vm with counted := module.name :: vm.counted })

/-- `lua_getfield` of `_MODULES`, whose metatable has an `__index`. -/
def luaGetfieldModules (lsmModules : List LuaLsmModule) (code : Name → LuaBehaviour) (vm : LuaVm)
    (i : Int) (name : Name) : Except LuaFault LuaVm :=
  if OperandStack.valueAt vm.stack i = some .modules then
    if name ∈ vm.loaded then .ok (luaPush vm (.value .table))
    else do
      let frame := [.value (.string name none), .modules]
      let (nresults, after) ← luaModulesIndex lsmModules code name { vm with stack := frame }
      let thunk := if nresults = 0 then .value .nil else after.stack.headD (.value .nil)
      .ok { after with stack := thunk :: vm.stack }
  else .error .index

end Loading

section Results

def EPERM : Int := 1

def ENOMEM : Int := 12

def MAX_ERRNO : Int := 4095

/-- The type of a hook's results. -/
inductive PcallType where
  | void
  | int
  | bool
  | boolerr
  deriving DecidableEq, Repr

/-- `lua_lsm_pcall_res_errno`: an `int` gets a `lua_Integer`. -/
def luaLsmPcallResErrno (vm : LuaVm) (idx : Nat) (ret : Int) : Int :=
  let errnum := (luaTointeger vm idx).bmod (2 ^ 32)
  if errnum > 0 ∧ errnum ≤ MAX_ERRNO then -errnum else ret

/-- `lua_lsm_pcall_res_int`. -/
def luaLsmPcallResInt (vm : LuaVm) (top : Nat) (ret : Int) : Int × LuaVm :=
  let nres := luaGettop vm + 1 - top
  let ret :=
    match nres with
    | 0 => ret
    | 1 => if luaTypeIsBoolean vm top then (if luaToboolean vm top then 0 else -EPERM) else ret
    | _ => if ¬ luaToboolean vm top then luaLsmPcallResErrno vm (top + 1) ret else ret
  (ret, luaPop vm nres)

/-- `lua_lsm_pcall_res_bool`. -/
def luaLsmPcallResBool (vm : LuaVm) (top : Nat) (ret : Int) : Int × LuaVm :=
  let nres := luaGettop vm + 1 - top
  let ret :=
    if nres > 0 ∧ luaTypeIsBoolean vm top then (if luaToboolean vm top then 1 else 0) else ret
  (ret, luaPop vm nres)

/-- `lua_lsm_pcall_res_boolerr`. -/
def luaLsmPcallResBoolerr (vm : LuaVm) (top : Nat) (ret : Int) : Int × LuaVm :=
  let nres := luaGettop vm + 1 - top
  let ret :=
    match nres with
    | 0 => ret
    | 1 => if luaTypeIsBoolean vm top then (if luaToboolean vm top then 1 else 0) else ret
    | _ =>
      if luaTypeIsBoolean vm top then
        if luaToboolean vm top then 1 else luaLsmPcallResErrno vm (top + 1) ret
      else if luaTypeIsNil vm top then luaLsmPcallResErrno vm (top + 1) ret
      else ret
  (ret, luaPop vm nres)

/-- `PCALL_RES_ ## rettype`. -/
def pcallRes (rettype : PcallType) (vm : LuaVm) (top : Nat) (ret : Int) : Int × LuaVm :=
  match rettype with
  | .void => (ret, vm)
  | .int => luaLsmPcallResInt vm top ret
  | .bool => luaLsmPcallResBool vm top ret
  | .boolerr => luaLsmPcallResBoolerr vm top ret

/-- `LCALL_NRES_ ## rettype`. -/
def lcallNres : PcallType → Option Nat
  | .void => some 0
  | _ => none

end Results

section Dispatch

/-- A body that calls the function itself: what it makes of the results, `none` where it leaves
the default, and what is left on the stack above them. Without results all of them leave the default. -/
structure NakedBody where
  read : List LuaTValue → Option Int
  left : List LuaSlot
  read_nil : read [] = none

/-- What follows the arguments: `LUA_PCALL`, or a body of the hook's own. -/
inductive LuaConvention where
  | pcall (rettype : PcallType)
  | naked (body : NakedBody)

/-- A hook: its number, the default of its result, its arguments (the last first), and whether it
fails with an error number where there is no VM. -/
structure LuaHook where
  nr : Nat
  lsmRetDefault : Int
  args : List LuaTValue
  convention : LuaConvention
  failretErrno : Bool

/-- `LUA_PCALL`. -/
def luaPcallHook (rettype : PcallType) (outcome : CallOutcome) (vm : LuaVm) (top : Nat) (ret : Int) :
    Except LuaFault (LuaVm × Int) := do
  let nargs := luaGettop vm - top
  let vm ← luaPushvalue vm (-nargs - 4)
  let vm ← luaSetfenv vm (-nargs - 6)
  let (status, vm) ← luaPcall vm nargs (lcallNres rettype) (-nargs - 6) outcome
  match status with
  | some _ => .ok (luaPop vm 1, ret)
  | none =>
    let (ret, vm) := pcallRes rettype vm top ret
    .ok (vm, ret)

/-- The body of a hook that calls the function itself, and `END_VM_CALL_int` after it. -/
def nakedHook (body : NakedBody) (lsmRetDefault : Int) (outcome : CallOutcome) (vm : LuaVm)
    (top : Nat) : Except LuaFault (LuaVm × Int) := do
  let nargs := luaGettop vm - top
  let vm ← luaPushvalue vm (-nargs - 4)
  let vm ← luaSetfenv vm (-nargs - 6)
  let (status, vm) ← luaPcall vm nargs none (-nargs - 6) outcome
  match status with
  | some _ => .ok (luaSettop vm (top - 1), lsmRetDefault)
  | none =>
    let ret :=
      match outcome with
      | .returns values => (body.read values).getD lsmRetDefault
      | .raises _ _ => lsmRetDefault
    let vm := { vm with stack := body.left ++ vm.stack }
    .ok (luaSettop vm (top - 1), ret)

/-- The arguments and the call, for the function on the top. -/
def callLfunc (hook : LuaHook) (name : Name) (outcome : CallOutcome) (vm : LuaVm) (ret : Int) :
    Except LuaFault (LuaVm × Int) := do
  let top := luaGettop vm
  let vm ← luaGetfenv vm (-1)
  let vm ← luaSetfield (luaPush vm (.value .userdata)) (-2)
  let vm := luaSetCurrEnv vm true
  let vm := { vm with stack := hook.args.map LuaSlot.value ++ vm.stack, called := vm.called ++ [name] }
  match hook.convention with
  | .pcall rettype => luaPcallHook rettype outcome vm top ret
  | .naked body => nakedHook body hook.lsmRetDefault outcome vm top

/-- The body of the loop, for a module that is asked. -/
def askModule (hook : LuaHook) (lsmModules : List LuaLsmModule) (code : Name → LuaBehaviour)
    (module : LuaLsmModule) (vm : LuaVm) (ret : Int) : Except LuaFault (LuaVm × Int) := do
  let vm ← luaGetfieldModules lsmModules code vm (-1) module.name
  let vm ← luaGetfield vm (-1) (code module.name).field
  if luaIsfunction vm (-1) then
    let (vm, ret) ← callLfunc hook module.name (code module.name).hook vm ret
    .ok (luaPop vm 1, ret)
  else
    let vm := luaPop vm 1
    .ok (luaPop vm 1, ret)

/-- `RET_CHECK_ ## pcalltype`: whether the loop ends. -/
def retCheck (hook : LuaHook) (ret : Int) : Bool :=
  match hook.convention with
  | .pcall .void => false
  | _ => ret ≠ hook.lsmRetDefault

/-- The modules that the loop does not pass over. -/
def asked (hook : LuaHook) (module : LuaLsmModule) : Bool :=
  decide (hook.nr ∈ module.hookfuncs) && decide (module.state = .live)

/-- `list_for_each_entry_srcu` over the modules. -/
def askModules (hook : LuaHook) (lsmModules : List LuaLsmModule) (code : Name → LuaBehaviour) :
    List LuaLsmModule → LuaVm → Int → Except LuaFault (LuaVm × Int)
  | [], vm, ret => .ok (vm, ret)
  | module :: rest, vm, ret =>
    if asked hook module then do
      let (vm, ret) ← askModule hook lsmModules code module vm ret
      if retCheck hook ret then .ok (vm, ret)
      else askModules hook lsmModules code rest vm ret
    else askModules hook lsmModules code rest vm ret

/-- The run of the dispatcher in a VM. -/
def luaLsmDispatch (hook : LuaHook) (lsmModules : List LuaLsmModule) (code : Name → LuaBehaviour)
    (vm : LuaVm) : Except LuaFault (LuaVm × Int) := do
  let vm := luaPush vm .traceback
  let vm := luaPush vm .thread
  let vm ← luaGetfenv vm (-1)
  let vm := luaPush vm .modules
  let (vm, ret) ← askModules hook lsmModules code lsmModules vm hook.lsmRetDefault
  let vm := luaPush vm (.value .nil)
  let vm := luaSetCurrEnv vm false
  .ok (luaPop vm 4, ret)

/-- `lua_lsm_ ## NAME`: `prepare` is what `__prepare_ ## NAME` returns, `vm` the VM that `lvm_get`
finds. -/
def luaLsm (hook : LuaHook) (prepare : Int) (r : LuaRegistry) (code : Name → LuaBehaviour)
    (vm : Option LuaVm) : Except LuaFault (Option LuaVm × Int) :=
  if prepare < 0 then .ok (vm, prepare)
  else if hookSkipped r hook.nr then .ok (vm, hook.lsmRetDefault)
  else
    match vm with
    | none => .ok (none, if hook.failretErrno then -ENOMEM else hook.lsmRetDefault)
    | some vm => (luaLsmDispatch hook r.modules code vm).map fun (vm, ret) => (some vm, ret)

end Dispatch

end Ksrc.Source

import Ksrc.Library.UpToFirst
import Ksrc.Source.LuaDispatch

/-!
# The dispatcher leaves the stack as it was

A module that is asked leaves the four slots of the dispatcher and what is below them, whatever its
function does: the indices that `LUA_PCALL` computes from the number of arguments always meet the
environment, the thread and the traceback. The one way out is a module that does not load: `_MODULES`
answers `nil`, and the next `lua_getfield` indexes it where nothing catches the error.
-/
namespace Ksrc.Guarantees.LuaDispatchStack
open Source Library

variable {hook : LuaHook} {lsmModules modules : List LuaLsmModule} {code : Name → LuaBehaviour}
  {module : LuaLsmModule} {vm : LuaVm} {name : Name} {ret : Int} {low base : List LuaSlot}
  {values : List LuaTValue} {rettype : PcallType}

section Results

/-- Lua's truth of a value. -/
def truth : LuaTValue → Bool
  | .nil => false
  | .boolean b => b
  | _ => true

/-- The error number in the second value. -/
def errnoVerdict (ret : Int) (v : LuaTValue) : Int :=
  let errnum := v.integer.bmod (2 ^ 32)
  if errnum > 0 ∧ errnum ≤ MAX_ERRNO then -errnum else ret

def intVerdict (ret : Int) : List LuaTValue → Int
  | [] => ret
  | [.boolean b] => if b then 0 else -EPERM
  | [_] => ret
  | v :: w :: _ => if truth v then ret else errnoVerdict ret w

def boolVerdict (ret : Int) : List LuaTValue → Int
  | .boolean b :: _ => if b then 1 else 0
  | _ => ret

def boolerrVerdict (ret : Int) : List LuaTValue → Int
  | [.boolean b] => if b then 1 else 0
  | .boolean b :: w :: _ => if b then 1 else errnoVerdict ret w
  | .nil :: w :: _ => errnoVerdict ret w
  | _ => ret

/-- What a hook makes of the results of a function. -/
def verdict (hook : LuaHook) (values : List LuaTValue) : Int :=
  match hook.convention with
  | .pcall .void => hook.lsmRetDefault
  | .pcall .int => intVerdict hook.lsmRetDefault values
  | .pcall .bool => boolVerdict hook.lsmRetDefault values
  | .pcall .boolerr => boolerrVerdict hook.lsmRetDefault values
  | .naked body => (body.read values).getD hook.lsmRetDefault

/-- No results leave the default. -/
theorem verdict_nil : verdict hook [] = hook.lsmRetDefault := by
  unfold verdict
  split
  · rfl
  · rfl
  · rfl
  · rfl
  · rename_i body _
    rw [body.read_nil]
    rfl

/-- The slots of the results of a call. -/
def resultSlots (values : List LuaTValue) : List LuaSlot := (values.map LuaSlot.value).reverse

theorem valueAt_result (values : List LuaTValue) (base : List LuaSlot) (k : Nat) :
    OperandStack.valueAt (resultSlots values ++ base) (base.length + 1 + k) =
      values[k]?.map LuaSlot.value := by
  rw [OperandStack.valueAt_above]
  unfold resultSlots
  rw [List.reverse_reverse, List.getElem?_map]

theorem valueAt_first : OperandStack.valueAt (resultSlots values ++ base) ((base.length + 1 : Nat) : Int) =
    values[0]?.map LuaSlot.value := by
  have first := valueAt_result values base 0
  simpa using first

theorem valueAt_second :
    OperandStack.valueAt (resultSlots values ++ base) ((base.length + 1 + 1 : Nat) : Int) =
      values[1]?.map LuaSlot.value := by
  have second := valueAt_result values base 1
  simpa using second

theorem resultSlots_length (values : List LuaTValue) : (resultSlots values).length = values.length := by
  unfold resultSlots
  simp

theorem nres_eq : (resultSlots values ++ base).length + 1 - (base.length + 1) = values.length := by
  rw [List.length_append, resultSlots_length]
  omega

theorem pop_results : (resultSlots values ++ base).drop values.length = base := by
  rw [← resultSlots_length values]
  exact List.drop_left

/-- `lua_lsm_pcall_res_int` reads the results and takes them off. -/
theorem resInt_eq : luaLsmPcallResInt { vm with stack := resultSlots values ++ base } (base.length + 1) ret =
    (intVerdict ret values, { vm with stack := base }) := by
  unfold luaLsmPcallResInt luaLsmPcallResErrno luaGettop luaPop luaTypeIsBoolean luaToboolean luaTointeger
  dsimp only
  rw [nres_eq, pop_results, valueAt_first, valueAt_second]
  match values with
  | [] => rfl
  | [v] => cases v <;> rfl
  | v :: w :: rest =>
    cases v with
    | boolean b => cases b <;> simp [intVerdict, truth, errnoVerdict]
    | _ => simp [intVerdict, truth, errnoVerdict]

theorem resBool_eq : luaLsmPcallResBool { vm with stack := resultSlots values ++ base } (base.length + 1) ret =
    (boolVerdict ret values, { vm with stack := base }) := by
  unfold luaLsmPcallResBool luaGettop luaPop luaTypeIsBoolean luaToboolean
  dsimp only
  rw [nres_eq, pop_results, valueAt_first]
  match values with
  | [] => rfl
  | v :: rest => cases v <;> simp [boolVerdict]

theorem resBoolerr_eq :
    luaLsmPcallResBoolerr { vm with stack := resultSlots values ++ base } (base.length + 1) ret =
      (boolerrVerdict ret values, { vm with stack := base }) := by
  unfold luaLsmPcallResBoolerr luaLsmPcallResErrno luaGettop luaPop luaTypeIsBoolean luaTypeIsNil
    luaToboolean luaTointeger
  dsimp only
  rw [nres_eq, pop_results, valueAt_first, valueAt_second]
  match values with
  | [] => rfl
  | [v] => cases v <;> rfl
  | v :: w :: rest => cases v <;> simp [boolerrVerdict, errnoVerdict]

end Results

section Loading

/-- A chunk that is parsed, called and returns a table. -/
def loads (behaviour : LuaBehaviour) : Bool :=
  match behaviour.loadbuffer, behaviour.chunk with
  | none, .returns (.table :: _) => true
  | _, _ => false

theorem moduleLoad_loads {behaviour : LuaBehaviour} (vm : LuaVm) (frame : List LuaSlot)
    (loaded : loads behaviour = true) :
    moduleLoad behaviour { vm with stack := frame } =
      .ok (none, { vm with stack := .value .table :: frame }) := by
  unfold loads at loaded
  split at loaded
  · rename_i parsed called
    simp only [moduleLoad, parsed, called]
    rfl
  · cases loaded

theorem moduleLoad_fails {behaviour : LuaBehaviour} (vm : LuaVm) (frame : List LuaSlot)
    (failed : loads behaviour = false) :
    ∃ err, moduleLoad behaviour { vm with stack := frame } =
      .ok (some err, { vm with stack := frame }) := by
  cases parsed : behaviour.loadbuffer with
  | some status =>
    simp only [moduleLoad, parsed]
    exact ⟨_, rfl⟩
  | none =>
    cases called : behaviour.chunk with
    | raises status error =>
      simp only [moduleLoad, parsed, called]
      exact ⟨_, rfl⟩
    | returns values =>
      simp only [moduleLoad, parsed, called]
      cases values with
      | nil => exact ⟨_, rfl⟩
      | cons v rest =>
        cases v with
        | table => simp [loads, parsed, called] at failed
        | _ => exact ⟨_, rfl⟩

/-- The module of a name is found on the list it is on. -/
theorem find_module (member : module ∈ lsmModules) :
    ∃ m, lsmModules.find? (fun m => m.name = module.name) = some m ∧ m.name = module.name := by
  cases found : lsmModules.find? (fun m => m.name = module.name) with
  | none =>
    have none := List.find?_eq_none.mp found module member
    simp at none
  | some m => exact ⟨m, rfl, by simpa using List.find?_some found⟩

/-- The table of a module that is in `_MODULES`. -/
theorem getfieldModules_loaded (stack : vm.stack = .modules :: low) (loaded : name ∈ vm.loaded) :
    luaGetfieldModules lsmModules code vm (-1) name =
      .ok { vm with stack := .value .table :: vm.stack } := by
  unfold luaGetfieldModules
  rw [if_pos (by rw [stack, OperandStack.valueAt_top]), if_pos loaded]
  rfl

/-- A module that loads is put in `_MODULES` and counted. -/
theorem getfieldModules_loads (stack : vm.stack = .modules :: low) (member : module ∈ lsmModules)
    (absent : module.name ∉ vm.loaded) (loaded : loads (code module.name) = true) :
    luaGetfieldModules lsmModules code vm (-1) module.name =
      .ok { vm with
        stack := .value .table :: vm.stack
        loaded := module.name :: vm.loaded
        dirty := true
        counted := module.name :: vm.counted } := by
  obtain ⟨m, found, same⟩ := find_module member
  unfold luaGetfieldModules luaModulesIndex
  rw [found, if_pos (by rw [stack, OperandStack.valueAt_top]), if_neg absent]
  dsimp only
  rw [same]
  let dirty : LuaVm := { vm with dirty := true }
  have load := moduleLoad_loads dirty [.value (.string module.name none), .modules] loaded
  rw [load]
  rfl

/-- A module that does not load leaves `nil`. -/
theorem getfieldModules_fails (stack : vm.stack = .modules :: low) (member : module ∈ lsmModules)
    (absent : module.name ∉ vm.loaded) (failed : loads (code module.name) = false) :
    luaGetfieldModules lsmModules code vm (-1) module.name =
      .ok { vm with stack := .value .nil :: vm.stack, dirty := true } := by
  obtain ⟨m, found, same⟩ := find_module member
  let dirty : LuaVm := { vm with dirty := true }
  obtain ⟨err, load⟩ := moduleLoad_fails dirty [.value (.string module.name none), .modules] failed
  unfold luaGetfieldModules luaModulesIndex
  rw [found, if_pos (by rw [stack, OperandStack.valueAt_top]), if_neg absent]
  dsimp only
  rw [same, load]
  rfl

end Loading

section Calling

/-- What a call gives. -/
def outcomeVerdict (hook : LuaHook) : CallOutcome → Int
  | .raises _ _ => hook.lsmRetDefault
  | .returns values => verdict hook values

/-- The slots of the arguments. -/
def argSlots (hook : LuaHook) : List LuaSlot := hook.args.map LuaSlot.value

/-- The stack above what was there on entry, while a module is asked: its table on the slots of the
dispatcher. -/
def askedBase (low : List LuaSlot) : List LuaSlot :=
  .value .table :: .modules :: .fenv :: .thread :: .traceback :: low

/-- `-nargs - 4` is the environment. -/
theorem env_index : luaPushvalue { vm with stack := argSlots hook ++ .value .function :: askedBase low }
    (-((argSlots hook).length : Int) - 4) =
      .ok { vm with stack := .fenv :: (argSlots hook ++ .value .function :: askedBase low) } := by
  have env : OperandStack.valueAt (argSlots hook ++ .value .function :: askedBase low)
      (-((argSlots hook).length : Int) - 4) = some .fenv :=
    OperandStack.valueAt_under (argSlots hook) [.value .function, .value .table, .modules] .fenv
      (.thread :: .traceback :: low) rfl
  unfold luaPushvalue
  dsimp only
  rw [env]
  rfl

/-- `-nargs - 6`, one slot higher, is the thread. -/
theorem thread_index :
    luaSetfenv { vm with stack := .fenv :: (argSlots hook ++ .value .function :: askedBase low) }
      (-((argSlots hook).length : Int) - 6) =
        .ok { vm with stack := argSlots hook ++ .value .function :: askedBase low } := by
  have index : -((argSlots hook).length : Int) - 6 =
      -((LuaSlot.fenv :: argSlots hook).length : Int) - (5 : Nat) := by
    rw [List.length_cons]
    omega
  have thread : OperandStack.valueAt (.fenv :: (argSlots hook ++ .value .function :: askedBase low))
      (-((argSlots hook).length : Int) - 6) = some .thread :=
    OperandStack.valueAt_under (LuaSlot.fenv :: argSlots hook)
      [.value .function, .value .table, .modules, .fenv] .thread (.traceback :: low) index
  have isTable : luaIstable
      { vm with stack := .fenv :: (argSlots hook ++ .value .function :: askedBase low) } (-1) = true := rfl
  unfold luaSetfenv
  rw [if_pos isTable]
  dsimp only
  rw [thread]
  rfl

/-- `-nargs - 6` is the traceback again, and `nargs` down is the function. -/
theorem pcall_eq (nresults : Option Nat) (outcome : CallOutcome) :
    luaPcall { vm with stack := argSlots hook ++ .value .function :: askedBase low }
      (argSlots hook).length nresults (-((argSlots hook).length : Int) - 6) outcome =
        match outcome with
        | .raises status error =>
          .ok (some status, { vm with stack := .value error :: askedBase low })
        | .returns values =>
          .ok (none, { vm with stack := resultSlots (adjustResults values nresults) ++ askedBase low }) := by
  have handler : OperandStack.valueAt (argSlots hook ++ .value .function :: askedBase low)
      (-((argSlots hook).length : Int) - 6) = some .traceback :=
    OperandStack.valueAt_under (argSlots hook)
      [.value .function, .value .table, .modules, .fenv, .thread] .traceback low rfl
  unfold luaPcall
  dsimp only
  rw [if_pos handler, List.drop_left]
  rfl

/-- The results that `PCALL_RES` reads and takes off. -/
theorem pcallRes_eq (convention : hook.convention = .pcall rettype) :
    pcallRes rettype { vm with stack := resultSlots (adjustResults values (lcallNres rettype)) ++ base }
      (base.length + 1) hook.lsmRetDefault = (verdict hook values, { vm with stack := base }) := by
  unfold verdict
  rw [convention]
  cases rettype with
  | void => rfl
  | int => exact resInt_eq
  | bool => exact resBool_eq
  | boolerr => exact resBoolerr_eq

/-- The two calls with the indices that `LUA_PCALL` computes. -/
theorem luaPcallHook_eq (convention : hook.convention = .pcall rettype) (outcome : CallOutcome) :
    luaPcallHook rettype outcome { vm with stack := argSlots hook ++ .value .function :: askedBase low }
      ((askedBase low).length + 1) hook.lsmRetDefault =
        .ok ({ vm with stack := askedBase low }, outcomeVerdict hook outcome) := by
  have nargs : (argSlots hook ++ .value .function :: askedBase low).length -
      ((askedBase low).length + 1) = (argSlots hook).length := by
    rw [List.length_append, List.length_cons]
    omega
  unfold luaPcallHook luaGettop
  dsimp only
  rw [nargs, env_index]
  dsimp only [bind, Except.bind]
  rw [thread_index]
  dsimp only
  rw [pcall_eq]
  cases outcome with
  | raises status error => rfl
  | returns values =>
    dsimp only
    rw [pcallRes_eq convention]
    rfl

/-- A body of the hook's own. -/
theorem nakedHook_eq {body : NakedBody} (convention : hook.convention = .naked body)
    (outcome : CallOutcome) :
    nakedHook body hook.lsmRetDefault outcome
      { vm with stack := argSlots hook ++ .value .function :: askedBase low }
      ((askedBase low).length + 1) =
        .ok ({ vm with stack := askedBase low }, outcomeVerdict hook outcome) := by
  have nargs : (argSlots hook ++ .value .function :: askedBase low).length -
      ((askedBase low).length + 1) = (argSlots hook).length := by
    rw [List.length_append, List.length_cons]
    omega
  unfold nakedHook luaGettop luaSettop
  dsimp only
  rw [nargs, env_index]
  dsimp only [bind, Except.bind]
  rw [thread_index]
  dsimp only
  rw [pcall_eq, Nat.add_sub_cancel]
  cases outcome with
  | raises status error =>
    dsimp only
    rw [show LuaSlot.value error :: askedBase low = [LuaSlot.value error] ++ askedBase low from rfl,
      OperandStack.settop_above]
    rfl
  | returns values =>
    dsimp only
    rw [← List.append_assoc, OperandStack.settop_above]
    unfold outcomeVerdict verdict
    rw [convention]

/-- A call leaves the table of the module on the slots of the dispatcher. -/
theorem callLfunc_eq (outcome : CallOutcome) :
    callLfunc hook name outcome { vm with stack := .value .function :: askedBase low }
      hook.lsmRetDefault =
        .ok ({ vm with stack := askedBase low, currEnv := true, called := vm.called ++ [name] },
          outcomeVerdict hook outcome) := by
  let running : LuaVm := { vm with currEnv := true, called := vm.called ++ [name] }
  unfold callLfunc
  cases convention : hook.convention with
  | pcall rettype => exact @luaPcallHook_eq hook running low rettype convention outcome
  | naked body => exact @nakedHook_eq hook running low body convention outcome

end Calling

section Asking

/-- How a module that is asked does in a VM. -/
inductive ModuleRun where
  | unloaded
  | noFunction
  | raised
  | returned (values : List LuaTValue)
  deriving DecidableEq

local instance lawfulName : LawfulBEq Name := inferInstance

def moduleRun (code : Name → LuaBehaviour) (loaded : List Name) (name : Name) : ModuleRun :=
  if name ∈ loaded ∨ loads (code name) = true then
    match (code name).field, (code name).hook with
    | .function, .raises _ _ => .raised
    | .function, .returns values => .returned values
    | _, _ => .noFunction
  else .unloaded

/-- The results of a module; none where there is no call or the call raises an error. -/
def ModuleRun.results : ModuleRun → List LuaTValue
  | .returned values => values
  | _ => []

/-- The call that is noted for a module. -/
def calls (code : Name → LuaBehaviour) (name : Name) : List Name :=
  if (code name).field = .function then [name] else []

/-- The slots of the dispatcher. -/
def dispatchBase (low : List LuaSlot) : List LuaSlot :=
  .modules :: .fenv :: .thread :: .traceback :: low

/-- Only a module that does not load changes when it is put in `_MODULES`. -/
theorem moduleRun_loaded {loaded loaded' : List Name}
    (grown : ∀ n, n ∈ loaded' ↔ n ∈ loaded ∨ n = name)
    (run : moduleRun code loaded name ≠ .unloaded) (n : Name) :
    moduleRun code loaded' n = moduleRun code loaded n := by
  have present : name ∈ loaded ∨ loads (code name) = true := by
    by_contra absent
    exact run (if_neg absent)
  have same : (n ∈ loaded' ∨ loads (code n) = true) ↔ (n ∈ loaded ∨ loads (code n) = true) := by
    rw [grown]
    constructor
    · rintro ((inside | rfl) | parsed)
      · exact .inl inside
      · exact present
      · exact .inr parsed
    · rintro (inside | parsed)
      · exact .inl (.inl inside)
      · exact .inr parsed
  unfold moduleRun
  rw [if_congr same rfl rfl]

/-- What `lua_getfield` of `_MODULES` leaves where the module is there or loads. -/
theorem getfieldModules_present (stack : vm.stack = dispatchBase low) (member : module ∈ lsmModules)
    (run : moduleRun code vm.loaded module.name ≠ .unloaded) :
    ∃ vm', luaGetfieldModules lsmModules code vm (-1) module.name = .ok vm' ∧
      vm'.stack = askedBase low ∧ vm'.called = vm.called ∧
      ∀ n, n ∈ vm'.loaded ↔ n ∈ vm.loaded ∨ n = module.name := by
  by_cases inside : module.name ∈ vm.loaded
  · refine ⟨_, getfieldModules_loaded stack inside, ?_, rfl, fun n => ?_⟩
    · rw [stack]
      rfl
    · constructor
      · exact Or.inl
      · rintro (present | rfl)
        · exact present
        · exact inside
  · have parsed : loads (code module.name) = true := by
      by_contra failed
      exact run (if_neg (not_or.mpr ⟨inside, failed⟩))
    refine ⟨_, getfieldModules_loads stack member inside parsed, ?_, rfl, fun n => ?_⟩
    · rw [stack]
      rfl
    · rw [List.mem_cons, or_comm]

/-- A module that does not load: the `nil` that is left is indexed. -/
theorem askModule_unloaded (stack : vm.stack = dispatchBase low) (member : module ∈ lsmModules)
    (run : moduleRun code vm.loaded module.name = .unloaded) :
    askModule hook lsmModules code module vm ret = .error .index := by
  have absent : ¬ (module.name ∈ vm.loaded ∨ loads (code module.name) = true) := by
    intro present
    unfold moduleRun at run
    rw [if_pos present] at run
    split at run <;> cases run
  rw [not_or, Bool.not_eq_true] at absent
  unfold askModule
  rw [getfieldModules_fails stack member absent.1 absent.2]
  rfl

/-- Any other module leaves the slots of the dispatcher. -/
theorem askModule_present (stack : vm.stack = dispatchBase low) (member : module ∈ lsmModules)
    (run : moduleRun code vm.loaded module.name ≠ .unloaded) :
    ∃ vm', askModule hook lsmModules code module vm hook.lsmRetDefault =
        .ok (vm', verdict hook (moduleRun code vm.loaded module.name).results) ∧
      vm'.stack = dispatchBase low ∧ vm'.called = vm.called ++ calls code module.name ∧
      ∀ n, n ∈ vm'.loaded ↔ n ∈ vm.loaded ∨ n = module.name := by
  obtain ⟨there, got, base, called, loaded⟩ := getfieldModules_present stack member run
  have present : module.name ∈ vm.loaded ∨ loads (code module.name) = true := by
    by_contra absent
    exact run (if_neg absent)
  have field : luaGetfield there (-1) (code module.name).field =
      .ok { there with stack := .value (code module.name).field :: askedBase low } := by
    unfold luaGetfield luaPush
    rw [base]
    rfl
  unfold askModule moduleRun calls
  rw [got, if_pos present]
  dsimp only [bind, Except.bind]
  rw [field]
  dsimp only
  by_cases isFunction : (code module.name).field = .function
  · have call := @callLfunc_eq hook there module.name low (code module.name).hook
    have function : luaIsfunction { there with stack := .value .function :: askedBase low } (-1) =
        true := rfl
    rw [isFunction, if_pos rfl, if_pos function, call]
    let after : LuaVm :=
      { there with
        stack := dispatchBase low, currEnv := true, called := there.called ++ [module.name] }
    refine ⟨after, ?_, rfl, ?_, loaded⟩
    · cases outcome : (code module.name).hook with
      | raises status error =>
        show Except.ok (_, hook.lsmRetDefault) = Except.ok (_, verdict hook [])
        rw [verdict_nil]
        rfl
      | returns values => rfl
    · rw [← called]
  · have noFunction : luaIsfunction
        { there with stack := .value (code module.name).field :: askedBase low } (-1) = false := by
      unfold luaIsfunction
      rw [OperandStack.valueAt_top]
      cases value : (code module.name).field with
      | function => exact absurd value isFunction
      | _ => rfl
    rw [noFunction, if_neg isFunction, List.append_nil]
    refine ⟨{ there with stack := dispatchBase low }, ?_, rfl, called, loaded⟩
    have noValues : verdict hook (ModuleRun.results (match (code module.name).field,
        (code module.name).hook with
      | .function, .raises _ _ => .raised
      | .function, .returns values => .returned values
      | _, _ => .noFunction)) = hook.lsmRetDefault := by
      cases value : (code module.name).field with
      | function => exact absurd value isFunction
      | _ => exact verdict_nil
    rw [noValues]
    rfl

end Asking

section Dispatching

/-- The verdict and the calls of the modules that are asked, up to the first verdict that is not the
default; `none` where a module that does not load comes before it. -/
def verdictOf (hook : LuaHook) (code : Name → LuaBehaviour) (loaded : List Name) :
    List LuaLsmModule → Option (Int × List Name)
  | [] => some (hook.lsmRetDefault, [])
  | module :: rest =>
    match moduleRun code loaded module.name with
    | .unloaded => none
    | run =>
      let ret := verdict hook run.results
      if retCheck hook ret then some (ret, calls code module.name)
      else (verdictOf hook code loaded rest).map fun (ret, called) =>
        (ret, calls code module.name ++ called)

/-- The loop goes on with the default. -/
theorem retCheck_continues (goesOn : retCheck hook (verdict hook values) = false) :
    verdict hook values = hook.lsmRetDefault := by
  unfold retCheck at goesOn
  split at goesOn
  · rename_i convention
    unfold verdict
    rw [convention]
  · simpa using goesOn

theorem verdictOf_unloaded {loaded : List Name} {rest : List LuaLsmModule}
    (run : moduleRun code loaded module.name = .unloaded) :
    verdictOf hook code loaded (module :: rest) = none := by
  unfold verdictOf
  rw [run]

theorem verdictOf_present {loaded : List Name} {rest : List LuaLsmModule}
    (run : moduleRun code loaded module.name ≠ .unloaded) :
    verdictOf hook code loaded (module :: rest) =
      if retCheck hook (verdict hook (moduleRun code loaded module.name).results) then
        some (verdict hook (moduleRun code loaded module.name).results, calls code module.name)
      else (verdictOf hook code loaded rest).map fun (ret, called) =>
        (ret, calls code module.name ++ called) := by
  conv_lhs => unfold verdictOf
  cases found : moduleRun code loaded module.name with
  | unloaded => exact absurd found run
  | _ => rfl

/-- A load leaves the runs of the modules as they are. -/
theorem verdictOf_loaded {loaded loaded' : List Name} (grown : ∀ n, n ∈ loaded' ↔ n ∈ loaded ∨ n = name)
    (run : moduleRun code loaded name ≠ .unloaded) (modules : List LuaLsmModule) :
    verdictOf hook code loaded' modules = verdictOf hook code loaded modules := by
  induction modules with
  | nil => rfl
  | cons module rest ih =>
    unfold verdictOf
    rw [moduleRun_loaded grown run, ih]

/-- The loop over the modules. -/
theorem askModules_eq (members : ∀ m ∈ modules, m ∈ lsmModules) (stack : vm.stack = dispatchBase low) :
    match verdictOf hook code vm.loaded (modules.filter (asked hook)) with
    | none => askModules hook lsmModules code modules vm hook.lsmRetDefault = .error .index
    | some (ret, called) =>
      ∃ vm', askModules hook lsmModules code modules vm hook.lsmRetDefault = .ok (vm', ret) ∧
        vm'.stack = dispatchBase low ∧ vm'.called = vm.called ++ called := by
  induction modules generalizing vm with
  | nil => exact ⟨vm, rfl, stack, (List.append_nil _).symm⟩
  | cons module rest ih =>
    have member := members module List.mem_cons_self
    have others : ∀ m ∈ rest, m ∈ lsmModules := fun m inside =>
      members m (List.mem_cons_of_mem module inside)
    unfold askModules
    by_cases isAsked : asked hook module = true
    · rw [List.filter_cons_of_pos isAsked, if_pos isAsked]
      by_cases run : moduleRun code vm.loaded module.name = .unloaded
      · rw [verdictOf_unloaded run, askModule_unloaded stack member run]
        rfl
      · obtain ⟨vm', asking, stack', called, loaded⟩ := @askModule_present hook _ _ _ _ _ stack member run
        rw [verdictOf_present run, asking]
        dsimp only [bind, Except.bind]
        by_cases ends : retCheck hook (verdict hook (moduleRun code vm.loaded module.name).results) = true
        · rw [if_pos ends, if_pos ends]
          exact ⟨vm', rfl, stack', called⟩
        · rw [if_neg ends, if_neg ends]
          rw [Bool.not_eq_true] at ends
          rw [retCheck_continues ends, ← verdictOf_loaded loaded run]
          have after := ih others stack'
          cases found : verdictOf hook code vm'.loaded (rest.filter (asked hook)) with
          | none =>
            rw [found] at after
            exact after
          | some answer =>
            rw [found] at after
            obtain ⟨last, rested, stack'', called'⟩ := after
            refine ⟨last, rested, stack'', ?_⟩
            rw [called', called, List.append_assoc]
    · rw [List.filter_cons_of_neg isAsked, if_neg isAsked]
      exact ih others stack

/-- The run of the dispatcher. -/
theorem luaLsmDispatch_eq (hook : LuaHook) (lsmModules : List LuaLsmModule)
    (code : Name → LuaBehaviour) (vm : LuaVm) :
    match verdictOf hook code vm.loaded (lsmModules.filter (asked hook)) with
    | none => luaLsmDispatch hook lsmModules code vm = .error .index
    | some (ret, called) =>
      ∃ vm', luaLsmDispatch hook lsmModules code vm = .ok (vm', ret) ∧
        vm'.stack = vm.stack ∧ vm'.called = vm.called ++ called := by
  let entered : LuaVm := { vm with stack := dispatchBase vm.stack }
  have loop := @askModules_eq hook lsmModules lsmModules code entered vm.stack (fun _ member => member) rfl
  have start : luaLsmDispatch hook lsmModules code vm =
      askModules hook lsmModules code lsmModules entered hook.lsmRetDefault >>= fun asked =>
        .ok (luaPop (luaSetCurrEnv (luaPush asked.1 (.value .nil)) false) 4, asked.2) := rfl
  rw [start]
  cases found : verdictOf hook code vm.loaded (lsmModules.filter (asked hook)) with
  | none =>
    rw [show verdictOf hook code entered.loaded _ = _ from found] at loop
    dsimp only at loop
    rw [loop]
    rfl
  | some answer =>
    rw [show verdictOf hook code entered.loaded _ = _ from found] at loop
    obtain ⟨vm', ran, stack, called⟩ := loop
    rw [ran]
    refine ⟨_, rfl, ?_, called⟩
    show List.drop 4 vm'.stack = vm.stack
    rw [stack]
    rfl

end Dispatching

section Safe

/-- A module that loads and returns no value. -/
def silent : LuaBehaviour where
  loadbuffer := none
  chunk := .returns [.table]
  field := .function
  hook := .returns []

/-- The modules that do not load or raise an error return no value instead. -/
def quiet (code : Name → LuaBehaviour) (loaded : List Name) (name : Name) : LuaBehaviour :=
  match moduleRun code loaded name with
  | .unloaded => silent
  | .raised => { code name with hook := .returns [] }
  | _ => code name

/-- Whether the loop ends with the verdict of a module. -/
def decides (hook : LuaHook) (code : Name → LuaBehaviour) (loaded : List Name) (m : LuaLsmModule) :
    Bool :=
  retCheck hook (verdict hook (moduleRun code loaded m.name).results)

variable {loaded : List Name}

theorem moduleRun_raised (run : moduleRun code loaded name = .raised) :
    (name ∈ loaded ∨ loads (code name) = true) ∧ (code name).field = .function := by
  unfold moduleRun at run
  split at run
  · rename_i present
    split at run
    · rename_i field _
      exact ⟨present, field⟩
    · cases run
    · cases run
  · cases run

/-- A quiet module has the results of the module, and loads. -/
theorem moduleRun_quiet (name : Name) :
    moduleRun (quiet code loaded) loaded name ≠ .unloaded ∧
      (moduleRun (quiet code loaded) loaded name).results = (moduleRun code loaded name).results := by
  cases run : moduleRun code loaded name with
  | unloaded =>
    have isSilent : quiet code loaded name = silent := by
      unfold quiet
      rw [run]
    have returned : moduleRun (quiet code loaded) loaded name = .returned [] := by
      unfold moduleRun
      rw [isSilent, if_pos (.inr rfl)]
      rfl
    rw [returned]
    exact ⟨by simp, rfl⟩
  | raised =>
    obtain ⟨present, field⟩ := moduleRun_raised run
    have isQuiet : quiet code loaded name = { code name with hook := .returns [] } := by
      unfold quiet
      rw [run]
    have there : name ∈ loaded ∨ loads (quiet code loaded name) = true := by
      rw [isQuiet]
      exact present
    have returned : moduleRun (quiet code loaded) loaded name = .returned [] := by
      unfold moduleRun
      rw [if_pos there, isQuiet]
      dsimp only
      rw [field]
    rw [returned]
    exact ⟨by simp, rfl⟩
  | noFunction =>
    have same : moduleRun (quiet code loaded) loaded name = moduleRun code loaded name := by
      unfold moduleRun
      rw [show quiet code loaded name = code name by unfold quiet; rw [run]]
    rw [same, run]
    exact ⟨by simp, rfl⟩
  | returned values =>
    have same : moduleRun (quiet code loaded) loaded name = moduleRun code loaded name := by
      unfold moduleRun
      rw [show quiet code loaded name = code name by unfold quiet; rw [run]]
    rw [same, run]
    exact ⟨by simp, rfl⟩

/-- The verdict is that of the quiet modules. -/
theorem verdictOf_quiet {called : List Name}
    (found : verdictOf hook code loaded modules = some (ret, called)) :
    ∃ called', verdictOf hook (quiet code loaded) loaded modules = some (ret, called') := by
  induction modules generalizing called with
  | nil =>
    cases found
    exact ⟨[], rfl⟩
  | cons module rest ih =>
    obtain ⟨present, results⟩ := @moduleRun_quiet code loaded module.name
    by_cases run : moduleRun code loaded module.name = .unloaded
    · rw [verdictOf_unloaded run] at found
      cases found
    · rw [verdictOf_present run] at found
      rw [verdictOf_present present, results]
      split at found
      · rename_i ends
        rw [if_pos ends]
        cases found
        exact ⟨_, rfl⟩
      · rename_i goesOn
        rw [if_neg goesOn]
        obtain ⟨⟨ret', called'⟩, rested, same⟩ := Option.map_eq_some_iff.mp found
        cases same
        obtain ⟨quietly, after⟩ := ih rested
        rw [after]
        exact ⟨_, rfl⟩

/-- The loop meets no module that does not load. -/
theorem verdictOf_isSome : (verdictOf hook code loaded modules).isSome = true ↔
    UpToFirst (fun m => decides hook code loaded m = false)
      (fun m => moduleRun code loaded m.name ≠ .unloaded) modules := by
  induction modules with
  | nil => exact ⟨fun _ => upToFirst_nil, fun _ => rfl⟩
  | cons module rest ih =>
    rw [upToFirst_cons]
    by_cases run : moduleRun code loaded module.name = .unloaded
    · rw [verdictOf_unloaded run]
      simp [run]
    · rw [verdictOf_present run]
      unfold decides
      split
      · rename_i ends
        simp [run, ends]
      · rename_i goesOn
        rw [Bool.not_eq_true] at goesOn
        rw [Option.isSome_map, ih]
        simp [run, goesOn, decides]

/-- What the dispatcher promises of a run: no value but a table is indexed outside a protected call,
the stack has the height it had, and the verdict is that of the run where the modules that do not load
or raise an error return no value. -/
def DispatchSafe (hook : LuaHook) (lsmModules : List LuaLsmModule) (code : Name → LuaBehaviour)
    (vm : LuaVm) : Prop :=
  ∃ vm' ret, luaLsmDispatch hook lsmModules code vm = .ok (vm', ret) ∧
    vm'.stack.length = vm.stack.length ∧
    ∃ vm'', luaLsmDispatch hook lsmModules (quiet code vm.loaded) vm = .ok (vm'', ret)

section Nil

/-- The hook of a module, whose results are read as those of most hooks are. -/
def fileOpen : LuaHook where
  nr := 0
  lsmRetDefault := 0
  args := [.userdata]
  convention := .pcall .int
  failretErrno := true

/-- A live module that has the hook. -/
def liveModule (name : Name) : LuaLsmModule where
  name := name
  author := none
  description := none
  license := none
  version := 0
  state := .live
  hookfuncs := {0}
  nhooks := 1
  nloaded := 0

/-- A VM in which nothing is loaded. -/
def freshVm : LuaVm where
  stack := []
  loaded := []
  dirty := false
  currEnv := false
  counted := []
  called := []

/-- A chunk that returns nothing when it is called. -/
def returnsNothing : LuaBehaviour where
  loadbuffer := none
  chunk := .returns []
  field := .nil
  hook := .returns []

end Nil

end Safe

end Ksrc.Guarantees.LuaDispatchStack

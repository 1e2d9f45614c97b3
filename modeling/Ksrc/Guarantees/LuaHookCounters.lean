import Ksrc.Library.Transition
import Ksrc.Source.LuaModules

/-!
# The hook counters agree with the list of modules

A registration that gets as far as the list counts the module, the first section of an
unregistration uncounts it, and nothing else touches the counters: not a registration that fails, not
the rest of an unregistration, and not the retry of one that has left a zombie.
-/
namespace Ksrc.Guarantees.LuaHookCounters
open Source Library

variable {r r' : LuaRegistry} {name : Name} {module : LuaLsmModule} {hooks : LuaHooks}
  {env : RegisterEnv} {i : Nat} {count : Int}

section Lists

variable {l : List LuaLsmModule} {f : LuaLsmModule → LuaLsmModule} {p : LuaLsmModule → Bool}

theorem update_other (absent : name ∉ l.map LuaLsmModule.name) :
    (l.map fun m => if m.name = name then f m else m) = l := by
  induction l with
  | nil => rfl
  | cons m rest ih =>
    rw [List.map_cons, List.mem_cons, not_or] at absent
    rw [List.map_cons, if_neg (Ne.symm absent.1), ih absent.2]

theorem filter_other (absent : name ∉ l.map LuaLsmModule.name) :
    (l.filter fun m => m.name ≠ name) = l := by
  induction l with
  | nil => rfl
  | cons m rest ih =>
    rw [List.map_cons, List.mem_cons, not_or] at absent
    rw [List.filter_cons_of_pos (by simpa using Ne.symm absent.1), ih absent.2]

/-- A module that is written to is counted as it is afterwards. -/
theorem countP_update (once : (l.map LuaLsmModule.name).Nodup) (member : module ∈ l) :
    ((l.map fun m => if m.name = module.name then f m else m).countP p : Int) +
      (if p module then 1 else 0) = l.countP p + (if p (f module) then 1 else 0) := by
  induction l with
  | nil => exact absurd member List.not_mem_nil
  | cons m rest ih =>
    rw [List.map_cons, List.nodup_cons] at once
    rw [List.map_cons, List.countP_cons, List.countP_cons]
    rcases List.mem_cons.mp member with rfl | member
    · rw [if_pos rfl, update_other once.1]
      push_cast
      omega
    · have differs : m.name ≠ module.name := by
        intro same
        exact once.1 (same ▸ List.mem_map_of_mem member)
      rw [if_neg differs]
      have rest := ih once.2 member
      push_cast
      omega

/-- A module that is not counted is taken out. -/
theorem countP_del (once : (l.map LuaLsmModule.name).Nodup) (member : module ∈ l)
    (uncounted : p module = false) : (l.filter fun m => m.name ≠ module.name).countP p = l.countP p := by
  induction l with
  | nil => exact absurd member List.not_mem_nil
  | cons m rest ih =>
    rw [List.map_cons, List.nodup_cons] at once
    rcases List.mem_cons.mp member with rfl | member
    · rw [List.filter_cons_of_neg (by simp), filter_other once.1,
        List.countP_cons_of_neg (by simp [uncounted])]
    · have differs : m.name ≠ module.name := by
        intro same
        exact once.1 (same ▸ List.mem_map_of_mem member)
      rw [List.filter_cons_of_pos (by simpa using differs), List.countP_cons, List.countP_cons,
        ih once.2 member]

theorem find_once (once : (l.map LuaLsmModule.name).Nodup) (member : module ∈ l) :
    (l.find? fun m => m.name = module.name) = some module := by
  induction l with
  | nil => exact absurd member List.not_mem_nil
  | cons m rest ih =>
    rw [List.map_cons, List.nodup_cons] at once
    rcases List.mem_cons.mp member with rfl | member
    · exact List.find?_cons_of_pos (by simp)
    · have differs : m.name ≠ module.name := by
        intro same
        exact once.1 (same ▸ List.mem_map_of_mem member)
      rw [List.find?_cons_of_neg (by simpa using differs), ih once.2 member]

theorem update_names (keeps : ∀ m, (f m).name = m.name) :
    (l.map fun m => if m.name = name then f m else m).map LuaLsmModule.name =
      l.map LuaLsmModule.name := by
  rw [List.map_map]
  refine List.map_congr_left fun m _ => ?_
  simp only [Function.comp_apply]
  split
  · exact keeps m
  · rfl

end Lists

section Counters

/-- A live module that implements a hook. -/
def implements (i : Nat) (m : LuaLsmModule) : Bool := decide (m.state = .live) && decide (i ∈ m.hookfuncs)

def isLive (m : LuaLsmModule) : Bool := decide (m.state = .live)

/-- The counters are those of the list, on which every name is once. -/
structure Counted (r : LuaRegistry) : Prop where
  once : (r.modules.map LuaLsmModule.name).Nodup
  nhooks : ∀ i, r.nhooks i = r.modules.countP (implements i)
  active : r.active = r.modules.countP isLive

theorem find_some (found : r.find name = some module) : module ∈ r.modules ∧ module.name = name := by
  unfold LuaRegistry.find at found
  exact ⟨List.mem_of_find?_eq_some found, by simpa using List.find?_some found⟩

theorem Counted.find (counted : Counted r) (member : module ∈ r.modules) :
    r.find module.name = some module :=
  find_once counted.once member

/-- A write that changes neither a name nor whether a module is live. -/
theorem Counted.update (counted : Counted r) (member : module ∈ r.modules)
    {f : LuaLsmModule → LuaLsmModule} (keeps : ∀ m, (f m).name = m.name)
    (live : isLive (f module) = isLive module) (hookfuncs : (f module).hookfuncs = module.hookfuncs) :
    Counted (r.update module.name f) := by
  have same : ∀ i, implements i (f module) = implements i module := by
    intro i
    have state : isLive (f module) = isLive module := live
    unfold isLive at state
    unfold implements
    rw [state, hookfuncs]
  refine ⟨?_, fun i => ?_, ?_⟩
  · unfold LuaRegistry.update
    rw [update_names keeps]
    exact counted.once
  · have count := countP_update (f := f) (p := implements i) counted.once member
    rw [same i] at count
    have nhooks := counted.nhooks i
    unfold LuaRegistry.update
    dsimp only
    omega
  · have count := countP_update (f := f) (p := isLive) counted.once member
    rw [live] at count
    have active := counted.active
    unfold LuaRegistry.update
    dsimp only
    omega

/-- A module that is not live is taken off the list. -/
theorem Counted.del (counted : Counted r) (member : module ∈ r.modules) (dead : isLive module = false) :
    Counted (r.del module.name) := by
  unfold LuaRegistry.del
  refine ⟨counted.once.sublist (List.Sublist.map _ List.filter_sublist), fun i => ?_, ?_⟩
  · have uncounted : implements i module = false := by
      unfold isLive at dead
      unfold implements
      rw [dead, Bool.false_and]
    rw [countP_del counted.once member uncounted]
    exact counted.nhooks i
  · rw [countP_del counted.once member dead]
    exact counted.active

/-- A registration that gets as far as the list. -/
theorem Counted.registered (counted : Counted r) {found : Bool}
    (done : registerSection r module = (found, r')) : Counted r' := by
  unfold registerSection at done
  split at done
  · cases done
    exact counted
  · rename_i absent
    cases done
    have new : module.name ∉ r.modules.map LuaLsmModule.name := by
      intro inside
      obtain ⟨m, member, same⟩ := List.mem_map.mp inside
      exact absent (List.any_eq_true.mpr ⟨m, member, by simp [same]⟩)
    refine ⟨?_, fun i => ?_, ?_⟩
    · rw [List.map_append, List.nodup_append]
      refine ⟨counted.once, List.nodup_singleton _, fun a inside b isNew same => ?_⟩
      rw [List.map_singleton, List.mem_singleton] at isNew
      exact new (isNew ▸ same ▸ inside)
    · have nhooks := counted.nhooks i
      rw [List.countP_append, List.countP_singleton]
      unfold implements at *
      by_cases has : i ∈ module.hookfuncs
      · simp [has, nhooks]
      · simp [has, nhooks]
    · have active := counted.active
      rw [List.countP_append, List.countP_singleton]
      unfold isLive at *
      simp [active]

theorem Counted.fields (counted : Counted r) {fields : ModuleFields} :
    Counted (registerFields env r fields).2 := by
  unfold registerFields
  split
  · exact counted
  split
  · exact counted
  split
  · exact counted
  · exact counted
  split
  · exact counted
  split
  · exact counted
  split
  · rename_i done
    exact counted.registered done
  · rename_i done
    exact counted.registered done

theorem Counted.table (counted : Counted r) {table : LuaTable} :
    Counted (registerTable hooks env r table).2 := by
  unfold registerTable
  split
  · exact counted
  · exact counted
  · exact counted
  · exact counted.fields

theorem Counted.register (counted : Counted r) : Counted (luaLsmModuleRegister hooks env r).2 := by
  unfold luaLsmModuleRegister
  split
  · exact counted
  split
  · exact counted
  split
  · exact counted
  split
  · exact counted
  · split
    · exact counted
    · exact counted
  split
  · exact counted
  split
  · exact counted
  · exact counted.table

/-- The first section: a live module is uncounted, and is not live afterwards. -/
theorem Counted.begin (counted : Counted r) (begun : unregisterBegin r name = some r') :
    Counted r' ∧ ∃ module ∈ r'.modules, module.name = name ∧ isLive module = false := by
  unfold unregisterBegin at begun
  split at begun
  · cases begun
  rename_i module found
  obtain ⟨member, rfl⟩ := find_some found
  split at begun
  · rename_i live
    cases begun
    have wasLive : isLive module = true := decide_eq_true live
    refine ⟨⟨?_, fun i => ?_, ?_⟩, { module with state := .going }, ?_, rfl, rfl⟩
    · unfold LuaRegistry.update
      rw [update_names (f := fun m => { m with state := .going }) fun _ => rfl]
      exact counted.once
    · have count := countP_update (f := fun m => { m with state := .going }) (p := implements i)
        counted.once member
      have nhooks := counted.nhooks i
      have wasCounted : implements i module = decide (i ∈ module.hookfuncs) := by
        unfold implements
        rw [live]
        rfl
      have nowUncounted : implements i { module with state := .going } = false := rfl
      rw [wasCounted, nowUncounted] at count
      unfold LuaRegistry.update
      dsimp only
      by_cases has : i ∈ module.hookfuncs
      · rw [if_pos has]
        simp only [has, decide_true, if_true, Bool.false_eq_true, if_false] at count
        omega
      · rw [if_neg has]
        simp only [has, decide_false, if_false, Bool.false_eq_true] at count
        omega
    · have count := countP_update (f := fun m => { m with state := .going }) (p := isLive)
        counted.once member
      have nowDead : isLive { module with state := .going } = false := rfl
      have active := counted.active
      rw [wasLive, nowDead] at count
      simp only [if_true, Bool.false_eq_true, if_false] at count
      unfold LuaRegistry.update
      dsimp only
      omega
    · unfold LuaRegistry.update
      exact List.mem_map.mpr ⟨module, member, if_pos rfl⟩
  · rename_i dead
    cases begun
    exact ⟨counted, module, member, rfl, decide_eq_false dead⟩

/-- The last section, for a module that is not live. -/
theorem Counted.end (counted : Counted r) (member : module ∈ r.modules)
    (dead : isLive module = false) : Counted (unregisterEnd r module.name count).2 := by
  unfold unregisterEnd
  rw [counted.find member]
  dsimp only
  split
  · exact counted.del member dead
  · exact counted.update member (fun _ => rfl) dead.symm rfl

end Counters

section Runs

/-- A call; `count` is what an unregistration removes from the VMs, which load and end in between. -/
inductive LuaModuleCall where
  | register (env : RegisterEnv)
  | unregister (name : Name) (count : Int)

/-- Modules are registered and unregistered, one call after the other. -/
def luaModules (hooks : LuaHooks) : Machine LuaRegistry LuaModuleCall where
  start := fun r => r.modules = [] ∧ (∀ i, r.nhooks i = 0) ∧ r.active = 0
  step := fun r call =>
    match call with
    | .register env => some (luaLsmModuleRegister hooks env r).2
    | .unregister name count => some (luaLsmModuleUnregister r name count).2

theorem Counted.step {call : LuaModuleCall} (counted : Counted r)
    (stepped : (luaModules hooks).step r call = some r') : Counted r' := by
  cases call with
  | register env =>
    cases stepped
    exact counted.register
  | unregister name count =>
    cases stepped
    unfold luaLsmModuleUnregister
    split
    · exact counted
    · rename_i begun
      obtain ⟨counted, module, member, rfl, dead⟩ := counted.begin begun
      exact counted.end member dead

/-- What every sequence of calls keeps. -/
theorem Counted.reached (reached : (luaModules hooks).Reachable Machine.free r) : Counted r := by
  refine reached.invariant (fun r₀ started => ?_) fun _ _ _ before _ stepped =>
    Counted.step before stepped
  obtain ⟨none, noHooks, inactive⟩ := started
  refine ⟨?_, fun i => ?_, ?_⟩
  · rw [none]
    exact List.nodup_nil
  · rw [none, noHooks]
    rfl
  · rw [none, inactive]
    rfl

/-- No hook of a live module is skipped. -/
theorem Counted.asked (counted : Counted r) (member : module ∈ r.modules) (live : module.state = .live)
    (has : i ∈ module.hookfuncs) : hookSkipped r i = false := by
  have inHooks : implements i module = true := by simp [implements, live, has]
  have inLive : isLive module = true := decide_eq_true live
  have some_ : 0 < r.modules.countP (implements i) := List.countP_pos_iff.mpr ⟨module, member, inHooks⟩
  have positive : 0 < r.modules.countP isLive := List.countP_pos_iff.mpr ⟨module, member, inLive⟩
  have nhooks := counted.nhooks i
  have active := counted.active
  unfold hookSkipped
  rw [Bool.or_eq_false_iff]
  exact ⟨decide_eq_false (by omega), decide_eq_false (by omega)⟩

/-- After every sequence of calls the counters agree with the list, and no hook of a live module is
skipped. -/
theorem counters_agree (reached : (luaModules hooks).Reachable Machine.free r) :
    (∀ i, r.nhooks i =
      (r.modules.filter fun m => m.state = .live ∧ i ∈ m.hookfuncs).length) ∧
    r.active = (r.modules.filter fun m => m.state = .live).length ∧
    ∀ m ∈ r.modules, m.state = .live → ∀ i ∈ m.hookfuncs, hookSkipped r i = false := by
  have counted := Counted.reached reached
  refine ⟨fun i => ?_, ?_, fun m member live i has => counted.asked member live has⟩
  · rw [counted.nhooks i, List.countP_eq_length_filter]
    unfold implements
    simp only [Bool.decide_and]
  · rw [counted.active, List.countP_eq_length_filter]
    rfl

section Zombie

/-- The hooks `file_open` and `task_alloc`. -/
def twoHooks : LuaHooks where
  names := [cstr "file_open".toList, cstr "task_alloc".toList]
  supported := fun _ => true

/-- A chunk that returns `{ name = name, file_open = function ... }`. -/
def fileOpenChunk (name : Name) : RegisterEnv where
  vm := true
  push := true
  load := none
  call := .done
  result := some [(.string (cstr "name".toList), .string name true),
    (.string (cstr "file_open".toList), .function)]
  kzalloc := true
  recompile := none
  dump := .done
  pushresult := true
  kmalloc := true

def noModules : LuaRegistry where
  modules := []
  nhooks := fun _ => 0
  active := 0

/-- A VM keeps the first module as a zombie, whose name is refused, and a second one is live. -/
def zombieRun : List LuaModuleCall :=
  [.register (fileOpenChunk (cstr "a".toList)), .unregister (cstr "a".toList) (-1),
    .register (fileOpenChunk (cstr "a".toList)), .register (fileOpenChunk (cstr "b".toList))]

def zombieRegistry : LuaRegistry :=
  (((luaModules twoHooks).exec noModules zombieRun).getD noModules)

theorem counters_agree_zombie :
    zombieRegistry.modules.map (fun m => m.state) = [.zombie, .live] ∧
    (∀ i, zombieRegistry.nhooks i =
      (zombieRegistry.modules.filter fun m => m.state = .live ∧ i ∈ m.hookfuncs).length) ∧
    zombieRegistry.active = (zombieRegistry.modules.filter fun m => m.state = .live).length ∧
    ∀ m ∈ zombieRegistry.modules, m.state = .live → ∀ i ∈ m.hookfuncs,
      hookSkipped zombieRegistry i = false := by
  have ran : (luaModules twoHooks).exec noModules zombieRun = some zombieRegistry := rfl
  exact ⟨by decide,
    counters_agree ⟨noModules, ⟨rfl, fun _ => rfl, rfl⟩, Machine.exec_reaches ran⟩⟩

end Zombie

end Runs

end Ksrc.Guarantees.LuaHookCounters

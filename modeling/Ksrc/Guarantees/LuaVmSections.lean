import Ksrc.Library.Tally
import Ksrc.Library.Transition
import Ksrc.Source.LuaVms

/-!
# The read sections and the Lua VMs

What holds between the sections, the VMs and the list of modules. The sections keep a module that they
have seen live until the first `synchronize_srcu`; an exit has its VM for itself.
-/
namespace Ksrc.Guarantees.LuaVmSections
open Source Library

variable {s s' : LuaSystem} {c c' v m m' : Nat} {n : Name} {w : SectionWork} {p : HookContext}

section States

/-- The module that a section has seen live. -/
def mentions : SectionWork → Option Nat
  | .asked _ m => some m
  | .loading _ m => some m
  | .stored _ m => some m
  | _ => none

/-- The VM that an exit is about. -/
def exits : SectionWork → Option Nat
  | .exiting v _ _ => some v
  | .reset v => some v
  | _ => none

/-- A section between the two writes for a module and a VM: the table is stored and not yet counted, or
it is counted off and not yet taken out. -/
def Shows (v m : Nat) : SectionWork → Prop
  | .stored v' m' => v' = v ∧ m' = m
  | .exiting v' _ visited => v' = v ∧ m ∈ visited
  | _ => False

/-- What a section does. -/
def workOf (s : LuaSystem) (c : Nat) : SectionWork := (s.context c).work

def Between (s : LuaSystem) (v m : Nat) : Prop := ∃ c, Shows v m (workOf s c)

/-- A VM has the table of a module. -/
def Holds (s : LuaSystem) (v m : Nat) : Prop := (s.vm v).modules (s.module m).name = some m

/-- A VM that is counted for a module. -/
def Counts (s : LuaSystem) (m v : Nat) : Prop := Holds s v m ∧ ¬ Between s v m

/-- What the unregistration in progress has removed. -/
def removals (s : LuaSystem) (m : Nat) : Int :=
  match s.unregister with
  | .removing m' _ count _ => if m' = m then count else 0
  | _ => 0

/-- A module that is not freed. -/
def Present (s : LuaSystem) (m : Nat) : Prop := s.listed m = true ∨ s.unregister = .deleted m

/-- The module that is unregistered and still on the list. -/
def going : UnregisterStage → Option Nat
  | .leaving m => some m
  | .removing m _ _ _ => some m
  | _ => none

/-- What every step keeps of the lists, the VMs and the sections. -/
structure Base (s : LuaSystem) : Prop where
  blank : ∀ v, s.built ≤ v → s.vm v = .blank
  outside : ∀ c, s.contexts ≤ c → s.context c = .outside
  names : ∀ m m', Present s m → Present s m' → (s.module m).name = (s.module m').name → m = m'
  listed : ∀ m, Present s m → m < s.allocated ∧ s.freed m = false
  unfreed : ∀ m, s.allocated ≤ m → s.freed m = false
  going : ∀ m, going s.unregister = some m → s.listed m = true ∧ (s.module m).state ≠ .live
  deleted : ∀ m, s.unregister = .deleted m → s.listed m = false
  seen : ∀ c m, mentions (workOf s c) = some m →
    s.listed m = true ∧
      ((s.module m).state = .live ∨ s.unregister = .leaving m ∧ (s.context c).old = true)
  users : ∀ c v, (workOf s c).uses = some v → (s.vm v).owner.runs = true
  dirtied : ∀ c v m, workOf s c = .loading v m → (s.vm v).dirty = true
  exiting : ∀ c v, exits (workOf s c) = some v → (s.vm v).owner = .exiting
  exitsOnce : ∀ c c' v, exits (workOf s c) = some v → exits (workOf s c') = some v → c = c'
  walks : ∀ c v before visited, workOf s c = .exiting v before visited →
    ∀ n m, (s.vm v).modules n = some m → m < before
  emptied : ∀ c v, workOf s c = .reset v → ∀ n, (s.vm v).modules n = none
  held : ∀ v n m, (s.vm v).modules n = some m → Present s m ∧ (s.module m).name = n
  gone : ∀ m v n, s.unregister = .deleted m → (s.vm v).modules n = some m →
    ∃ c before visited, s.context c = .inside true (.exiting v before visited) ∧ m ∈ visited
  clean : ∀ v, (s.vm v).dirty = false → ∀ n, (s.vm v).modules n = none
  pooled : ∀ v, (s.vm v).owner.runs = false → (s.vm v).owner ≠ .exiting →
    ∀ n, (s.vm v).modules n = none
  stores : ∀ c v m, workOf s c = .stored v m → Holds s v m
  storesOnce : ∀ c c' v m, workOf s c = .stored v m → workOf s c' = .stored v m → c = c'

/-- The counters of the modules on the list. -/
def Counted (s : LuaSystem) : Prop :=
  ∀ m, s.listed m = true → ∃ n, Tally n (Counts s m) ∧ (s.module m).nloaded = n + removals s m

end States

section Sections

theorem setContext_self : (s.setContext c p).context c = p := by
  unfold LuaSystem.setContext
  exact Function.update_self ..

theorem setContext_other (differs : c' ≠ c) : (s.setContext c p).context c' = s.context c' := by
  unfold LuaSystem.setContext
  exact Function.update_of_ne differs ..

theorem workOf_self : workOf (s.setContext c p) c = p.work := by
  unfold workOf
  rw [setContext_self]

theorem workOf_other (differs : c' ≠ c) : workOf (s.setContext c p) c' = workOf s c' := by
  unfold workOf
  rw [setContext_other differs]

/-- What a section may go on with. -/
structure Goes (s : LuaSystem) (c : Nat) (p : HookContext) : Prop where
  outside : s.contexts ≤ c → p = .outside
  seen : ∀ m, mentions p.work = some m → s.listed m = true ∧
    ((s.module m).state = .live ∨ s.unregister = .leaving m ∧ p.old = true)
  users : ∀ v, p.work.uses = some v → (s.vm v).owner.runs = true
  dirtied : ∀ v m, p.work = .loading v m → (s.vm v).dirty = true
  exiting : ∀ v, exits p.work = some v → (s.vm v).owner = .exiting
  exitsOnce : ∀ v, exits p.work = some v → ∀ c', exits (workOf s c') = some v → c' = c
  walks : ∀ v before visited, p.work = .exiting v before visited →
    ∀ n m, (s.vm v).modules n = some m → m < before
  emptied : ∀ v, p.work = .reset v → ∀ n, (s.vm v).modules n = none
  gone : ∀ m v n, s.unregister = .deleted m → (s.vm v).modules n = some m →
    ∀ before visited, s.context c = .inside true (.exiting v before visited) → m ∈ visited →
      ∃ visited', p = .inside true (.exiting v before visited') ∧ m ∈ visited'
  stores : ∀ v m, p.work = .stored v m → Holds s v m
  storesOnce : ∀ v m, p.work = .stored v m → ∀ c', workOf s c' = .stored v m → c' = c

theorem Base.setContext (base : Base s) (goes : Goes s c p) : Base (s.setContext c p) := by
  -- what is known of every section, and what is asked of the new one
  have each : ∀ {q : Nat → HookContext → Prop}, (∀ c', q c' (s.context c')) → q c p →
      ∀ c', q c' ((s.setContext c p).context c') := by
    intro q all new c'
    by_cases same : c' = c
    · rw [same, setContext_self]
      exact new
    · rw [setContext_other same]
      exact all c'
  have pair : ∀ {q : HookContext → Prop}, (∀ c', q (s.context c') → q p → c' = c) →
      (∀ c' c'', q (s.context c') → q (s.context c'') → c' = c'') →
      ∀ c' c'', q ((s.setContext c p).context c') → q ((s.setContext c p).context c'') → c' = c'' := by
    intro q new all c' c'' first second
    by_cases same : c' = c
    · by_cases same' : c'' = c
      · rw [same, same']
      · rw [same, setContext_self] at first
        rw [setContext_other same'] at second
        rw [same, new c'' second first]
    · rw [setContext_other same] at first
      by_cases same' : c'' = c
      · rw [same', setContext_self] at second
        rw [same', new c' first second]
      · rw [setContext_other same'] at second
        exact all c' c'' first second
  refine { base with
    outside := @each (fun d q => s.contexts ≤ d → q = .outside) base.outside goes.outside
    seen := @each (fun _ q => ∀ m, mentions q.work = some m → s.listed m = true ∧
      ((s.module m).state = .live ∨ s.unregister = .leaving m ∧ q.old = true)) base.seen goes.seen
    users := @each (fun _ q => ∀ v, q.work.uses = some v → (s.vm v).owner.runs = true)
      base.users goes.users
    dirtied := @each (fun _ q => ∀ v m, q.work = .loading v m → (s.vm v).dirty = true)
      base.dirtied goes.dirtied
    exiting := @each (fun _ q => ∀ v, exits q.work = some v → (s.vm v).owner = .exiting)
      base.exiting goes.exiting
    exitsOnce := fun c' c'' v => @pair (fun q => exits q.work = some v)
      (fun d isExit new => goes.exitsOnce v new d isExit) (fun d d' => base.exitsOnce d d' v) c' c''
    walks := @each (fun _ q => ∀ v before visited, q.work = .exiting v before visited →
      ∀ n m, (s.vm v).modules n = some m → m < before) base.walks goes.walks
    emptied := @each (fun _ q => ∀ v, q.work = .reset v → ∀ n, (s.vm v).modules n = none)
      base.emptied goes.emptied
    gone := ?_
    stores := @each (fun _ q => ∀ v m, q.work = .stored v m → Holds s v m) base.stores goes.stores
    storesOnce := fun c' c'' v m => @pair (fun q => q.work = .stored v m)
      (fun d isStore new => goes.storesOnce v m new d isStore)
      (fun d d' => base.storesOnce d d' v m) c' c'' }
  intro m v n deleted entry
  obtain ⟨c', before, visited, isOld, inside⟩ := base.gone m v n deleted entry
  by_cases same : c' = c
  · rw [same] at isOld
    obtain ⟨visited', new, inside'⟩ := goes.gone m v n deleted entry before visited isOld inside
    exact ⟨c, before, visited', by rw [setContext_self, new], inside'⟩
  · exact ⟨c', before, visited, by rwa [setContext_other same], inside⟩

/-- A section that is neither about a stored table nor about an exit. -/
theorem Goes.plain (outside : s.contexts ≤ c → p = .outside)
    (seen : ∀ m, mentions p.work = some m → s.listed m = true ∧
      ((s.module m).state = .live ∨ s.unregister = .leaving m ∧ p.old = true))
    (users : ∀ v, p.work.uses = some v → (s.vm v).owner.runs = true)
    (dirtied : ∀ v m, p.work = .loading v m → (s.vm v).dirty = true)
    (noExit : exits p.work = none) (noStore : ∀ v m, p.work ≠ .stored v m)
    (before : exits (workOf s c) = none) : Goes s c p := by
  have never : ∀ v, exits p.work ≠ some v := by
    intro v isExit
    rw [noExit] at isExit
    cases isExit
  refine ⟨outside, seen, users, dirtied, fun v isExit => absurd isExit (never v),
    fun v isExit => absurd isExit (never v), ?_, ?_, ?_, fun v m isStore => absurd isStore (noStore v m),
    fun v m isStore => absurd isStore (noStore v m)⟩
  · intro v walk visited isExit
    exact absurd (show exits p.work = some v by rw [isExit]; rfl) (never v)
  · intro v isExit
    exact absurd (show exits p.work = some v by rw [isExit]; rfl) (never v)
  · intro m v n _ _ walk visited isExit
    unfold workOf at before
    rw [isExit] at before
    cases before

/-- A section between the two writes for the same modules as before. -/
theorem Counted.setContext (counted : Counted s)
    (same : ∀ v m, s.listed m = true → Holds s v m → (Shows v m p.work ↔ Shows v m (workOf s c))) :
    Counted (s.setContext c p) := by
  intro m isListed
  obtain ⟨k, tally, nloaded⟩ := counted m isListed
  refine ⟨k, tally.congr fun v => ?_, nloaded⟩
  refine and_congr_right fun holds => not_congr ⟨?_, ?_⟩
  · rintro ⟨d, shows⟩
    by_cases isHere : d = c
    · rw [isHere, workOf_self] at shows
      exact ⟨c, (same v m isListed holds).mp shows⟩
    · rw [workOf_other isHere] at shows
      exact ⟨d, shows⟩
  · rintro ⟨d, shows⟩
    by_cases isHere : d = c
    · rw [isHere] at shows
      exact ⟨c, by rw [workOf_self]; exact (same v m isListed holds).mpr shows⟩
    · exact ⟨d, by rwa [workOf_other isHere]⟩

end Sections

section Vms

variable {lvm : LvmState}

theorem setVm_self : (s.setVm v lvm).vm v = lvm := by
  unfold LuaSystem.setVm
  exact Function.update_self ..

theorem setVm_other {v' : Nat} (differs : v' ≠ v) : (s.setVm v lvm).vm v' = s.vm v' := by
  unfold LuaSystem.setVm
  exact Function.update_of_ne differs ..

/-- What a VM may become. -/
structure Fits (s : LuaSystem) (v : Nat) (lvm : LvmState) : Prop where
  small : v < s.built
  users : ∀ c, (workOf s c).uses = some v → lvm.owner.runs = true
  dirtied : ∀ c m, workOf s c = .loading v m → lvm.dirty = true
  exiting : ∀ c, exits (workOf s c) = some v → lvm.owner = .exiting
  walks : ∀ c before visited, workOf s c = .exiting v before visited →
    ∀ n m, lvm.modules n = some m → m < before
  emptied : ∀ c, workOf s c = .reset v → ∀ n, lvm.modules n = none
  held : ∀ n m, lvm.modules n = some m → Present s m ∧ (s.module m).name = n
  gone : ∀ m n, s.unregister = .deleted m → lvm.modules n = some m → (s.vm v).modules n = some m
  clean : lvm.dirty = false → ∀ n, lvm.modules n = none
  pooled : lvm.owner.runs = false → lvm.owner ≠ .exiting → ∀ n, lvm.modules n = none
  stores : ∀ c m, workOf s c = .stored v m → lvm.modules (s.module m).name = some m

theorem Base.setVm (base : Base s) (fits : Fits s v lvm) : Base (s.setVm v lvm) := by
  have each : ∀ {q : Nat → LvmState → Prop}, (∀ v', q v' (s.vm v')) → q v lvm →
      ∀ v', q v' ((s.setVm v lvm).vm v') := by
    intro q all new v'
    by_cases same : v' = v
    · rw [same, setVm_self]
      exact new
    · rw [setVm_other same]
      exact all v'
  refine { base with
    blank := @each (fun d l => s.built ≤ d → l = .blank) base.blank
      fun large => absurd fits.small (not_lt.mpr large)
    users := fun d v' => @each (fun d' l => (workOf s d).uses = some d' → l.owner.runs = true)
      (base.users d) (fits.users d) v'
    dirtied := fun d v' m => @each (fun d' l => workOf s d = .loading d' m → l.dirty = true)
      (fun d' => base.dirtied d d' m) (fits.dirtied d m) v'
    exiting := fun d v' => @each (fun d' l => exits (workOf s d) = some d' → l.owner = .exiting)
      (base.exiting d) (fits.exiting d) v'
    walks := fun d v' before visited => @each (fun d' l => workOf s d = .exiting d' before visited →
      ∀ n m, l.modules n = some m → m < before) (fun d' => base.walks d d' before visited)
      (fits.walks d before visited) v'
    emptied := fun d v' => @each (fun d' l => workOf s d = .reset d' → ∀ n, l.modules n = none)
      (base.emptied d) (fits.emptied d) v'
    held := @each (fun _ l => ∀ n m, l.modules n = some m → Present s m ∧ (s.module m).name = n)
      base.held fits.held
    gone := fun m v' n deleted => @each (fun d' l => l.modules n = some m →
      ∃ c before visited, s.context c = .inside true (.exiting d' before visited) ∧ m ∈ visited)
      (fun d' => base.gone m d' n deleted)
      (fun entry => base.gone m v n deleted (fits.gone m n deleted entry)) v'
    clean := @each (fun _ l => l.dirty = false → ∀ n, l.modules n = none) base.clean fits.clean
    pooled := @each (fun _ l => l.owner.runs = false → l.owner ≠ .exiting → ∀ n, l.modules n = none)
      base.pooled fits.pooled
    stores := fun d v' m => @each (fun d' l => workOf s d = .stored d' m →
      l.modules (s.module m).name = some m) (fun d' => base.stores d d' m) (fits.stores d m) v' }

/-- A VM with another owner or another flag. -/
theorem Fits.same (base : Base s) (modules : lvm.modules = (s.vm v).modules) (small : v < s.built)
    (users : ∀ c, (workOf s c).uses = some v → lvm.owner.runs = true)
    (dirtied : (s.vm v).dirty = true → lvm.dirty = true)
    (exiting : ∀ c, exits (workOf s c) = some v → lvm.owner = .exiting)
    (clean : lvm.dirty = false → ∀ n, lvm.modules n = none)
    (pooled : lvm.owner.runs = false → lvm.owner ≠ .exiting → ∀ n, lvm.modules n = none) :
    Fits s v lvm := by
  refine ⟨small, users, fun d m isLoad => dirtied (base.dirtied d v m isLoad), exiting, ?_, ?_, ?_, ?_,
    clean, pooled, ?_⟩
  · rw [modules]
    exact fun d => base.walks d v
  · rw [modules]
    exact fun d => base.emptied d v
  · rw [modules]
    exact base.held v
  · rw [modules]
    exact fun _ _ _ entry => entry
  · rw [modules]
    exact fun d => base.stores d v

theorem Counted.setVm (counted : Counted s) (modules : lvm.modules = (s.vm v).modules) :
    Counted (s.setVm v lvm) := by
  intro m isListed
  obtain ⟨k, tally, nloaded⟩ := counted m isListed
  refine ⟨k, tally.congr fun v' => and_congr_left fun _ => ?_, nloaded⟩
  unfold Holds
  by_cases same : v' = v
  · rw [same, setVm_self, modules]
    rfl
  · rw [setVm_other same]
    rfl

/-- A VM that somebody has is built. -/
theorem Base.built (base : Base s) (owned : (s.vm v).owner ≠ .closed) : v < s.built := by
  by_contra large
  rw [base.blank v (not_lt.mp large)] at owned
  exact owned rfl

end Vms

section Modules

variable {module : LuaLsmModule} {k : Int}

theorem setModule_self : (s.setModule m module).module m = module := by
  unfold LuaSystem.setModule
  exact Function.update_self ..

theorem setModule_other (differs : m' ≠ m) : (s.setModule m module).module m' = s.module m' := by
  unfold LuaSystem.setModule
  exact Function.update_of_ne differs ..

theorem setModule_name (name : module.name = (s.module m).name) :
    ((s.setModule m module).module m').name = (s.module m').name := by
  by_cases same : m' = m
  · rw [same, setModule_self, name]
  · rw [setModule_other same]

theorem setModule_holds (name : module.name = (s.module m).name) :
    Holds (s.setModule m module) v m' ↔ Holds s v m' := by
  unfold Holds
  rw [setModule_name name]
  rfl

/-- A module that keeps its name, with a state that the sections and the unregistration allow. -/
theorem Base.setModule (base : Base s) (name : module.name = (s.module m).name)
    (notLive : LuaVmSections.going s.unregister = some m → module.state ≠ .live)
    (live : ∀ c, mentions (workOf s c) = some m →
      module.state = .live ∨ s.unregister = .leaving m ∧ (s.context c).old = true) :
    Base (s.setModule m module) := by
  have names : ∀ m', ((s.setModule m module).module m').name = (s.module m').name := fun m' =>
    setModule_name name
  refine { base with names := ?_, going := ?_, seen := ?_, held := ?_, stores := ?_ }
  · intro a b
    rw [names a, names b]
    exact base.names a b
  · intro m' isGoing
    obtain ⟨isListed, state⟩ := base.going m' isGoing
    refine ⟨isListed, ?_⟩
    by_cases same : m' = m
    · rw [same, setModule_self]
      exact notLive (same ▸ isGoing)
    · rwa [setModule_other same]
  · intro c m' mention
    obtain ⟨isListed, state⟩ := base.seen c m' mention
    refine ⟨isListed, ?_⟩
    by_cases same : m' = m
    · rw [same, setModule_self]
      exact live c (same ▸ mention)
    · rwa [setModule_other same]
  · intro v n m' entry
    rw [names m']
    exact base.held v n m' entry
  · intro c v m' isStore
    unfold Holds
    rw [names m']
    exact base.stores c v m' isStore

theorem addLoaded_nloaded : ((s.addLoaded m k).module m).nloaded = (s.module m).nloaded + k := by
  unfold LuaSystem.addLoaded
  rw [setModule_self]

theorem addLoaded_other (differs : m' ≠ m) : (s.addLoaded m k).module m' = s.module m' :=
  setModule_other differs

theorem addLoaded_state : ((s.addLoaded m k).module m').state = (s.module m').state := by
  by_cases same : m' = m
  · unfold LuaSystem.addLoaded
    rw [same, setModule_self]
  · rw [addLoaded_other same]

theorem Base.addLoaded (base : Base s) : Base (s.addLoaded m k) :=
  base.setModule rfl (fun isGoing => (base.going m isGoing).2) fun c mention => (base.seen c m mention).2

theorem addLoaded_name : ((s.addLoaded m k).module m').name = (s.module m').name :=
  setModule_name rfl

theorem addLoaded_holds : Holds (s.addLoaded m k) v m' ↔ Holds s v m' := by
  unfold Holds
  rw [addLoaded_name]
  rfl

/-- A module that is registered. -/
theorem Base.register (base : Base s) (registered : registerStep s module = some s') : Base s' := by
  unfold registerStep at registered
  split at registered
  · rename_i free
    obtain ⟨idle, new⟩ := free
    cases registered
    have present : ∀ m, Present s m → s.listed m = true ∧ m ≠ s.allocated := by
      intro m isPresent
      refine ⟨?_, (base.listed m isPresent).1.ne⟩
      rcases isPresent with isListed | deleted
      · exact isListed
      · rw [idle] at deleted
        cases deleted
    have absent : ∀ m, Present s m → (s.module m).name ≠ module.name := by
      intro m isPresent same
      unfold LuaSystem.nameTaken at new
      exact of_decide_eq_false new ⟨m, (base.listed m isPresent).1, (present m isPresent).1, same⟩
    have kept : ∀ m, Present s m → Function.update s.listed s.allocated true m = true := by
      intro m isPresent
      rw [Function.update_of_ne (present m isPresent).2]
      exact (present m isPresent).1
    have old : ∀ m, m ≠ s.allocated →
        Function.update s.listed s.allocated true m = true ∨ s.unregister = .deleted m → Present s m := by
      intro m differs after
      rwa [Function.update_of_ne differs] at after
    have inList : ∀ m, s.listed m = true → m ≠ s.allocated := fun m isListed =>
      (present m (.inl isListed)).2
    refine { base with
      names := ?_, listed := ?_, unfreed := ?_, going := ?_, deleted := ?_, seen := ?_, held := ?_,
      stores := ?_ }
    · intro a b isA isB same
      by_cases isNew : a = s.allocated
      · by_cases isNew' : b = s.allocated
        · rw [isNew, isNew']
        · exfalso
          refine absent b (old b isNew' isB) ?_
          dsimp only at same
          rw [setModule_other isNew', isNew, setModule_self] at same
          exact same.symm
      · by_cases isNew' : b = s.allocated
        · exfalso
          refine absent a (old a isNew isA) ?_
          dsimp only at same
          rw [setModule_other isNew, isNew', setModule_self] at same
          exact same
        · dsimp only at same
          rw [setModule_other isNew, setModule_other isNew'] at same
          exact base.names a b (old a isNew isA) (old b isNew' isB) same
    · intro m isPresent
      by_cases isNew : m = s.allocated
      · rw [isNew]
        exact ⟨Nat.lt_succ_self _, base.unfreed _ (le_refl _)⟩
      · have before := base.listed m (old m isNew isPresent)
        exact ⟨Nat.lt_succ_of_lt before.1, before.2⟩
    · intro m large
      exact base.unfreed m (Nat.le_of_succ_le large)
    · intro m isGoing
      dsimp only at isGoing
      rw [show (s.setModule s.allocated _).unregister = s.unregister from rfl, idle] at isGoing
      cases isGoing
    · intro m deleted
      rw [show (s.setModule s.allocated _).unregister = s.unregister from rfl, idle] at deleted
      cases deleted
    · intro c m mention
      obtain ⟨isListed, state⟩ := base.seen c m mention
      dsimp only
      rw [setModule_other (inList m isListed)]
      exact ⟨kept m (.inl isListed), state⟩
    · intro v n m entry
      obtain ⟨isPresent, name⟩ := base.held v n m entry
      dsimp only
      rw [setModule_other (present m isPresent).2]
      exact ⟨.inl (kept m isPresent), name⟩
    · intro c v m isStore
      have mention : mentions (workOf s c) = some m := by
        rw [show workOf s c = .stored v m from isStore]
        rfl
      unfold Holds
      dsimp only
      rw [setModule_other (inList m (base.seen c m mention).1)]
      exact base.stores c v m isStore
  · cases registered

end Modules

section Stages

theorem age_work {p : HookContext} : p.age.work = p.work := by
  cases p <;> rfl

theorem mention_old {p : HookContext} (mention : mentions p.work = some m) : p.age.old = true := by
  cases p with
  | outside => cases mention
  | inside o w => rfl

/-- The contexts when `synchronize_srcu` begins to wait. -/
def aged (s : LuaSystem) : LuaSystem := { s with context := fun c => (s.context c).age }

theorem aged_work : workOf (aged s) c = workOf s c := age_work

theorem Base.aged (base : Base s) : Base (aged s) := by
  have work : workOf (LuaVmSections.aged s) = workOf s := funext fun c => aged_work
  refine { base with
    outside := ?_, seen := ?_, users := ?_, dirtied := ?_, exiting := ?_, exitsOnce := ?_, walks := ?_,
    emptied := ?_, gone := ?_, stores := ?_, storesOnce := ?_ }
  · intro c large
    show (s.context c).age = .outside
    rw [base.outside c large]
    rfl
  · rw [work]
    intro c m mention
    obtain ⟨isListed, live | ⟨leaving, -⟩⟩ := base.seen c m mention
    · exact ⟨isListed, .inl live⟩
    · exact ⟨isListed, .inr ⟨leaving, mention_old mention⟩⟩
  · rw [work]
    exact base.users
  · rw [work]
    exact base.dirtied
  · rw [work]
    exact base.exiting
  · rw [work]
    exact base.exitsOnce
  · rw [work]
    exact base.walks
  · rw [work]
    exact base.emptied
  · intro m v n deleted entry
    obtain ⟨c, before, visited, isOld, inside⟩ := base.gone m v n deleted entry
    refine ⟨c, before, visited, ?_, inside⟩
    show (s.context c).age = _
    rw [isOld]
    rfl
  · rw [work]
    exact base.stores
  · rw [work]
    exact base.storesOnce

theorem aged_between : Between (aged s) v m ↔ Between s v m :=
  exists_congr fun c => by rw [aged_work]

/-- No section is old when `synchronize_srcu` returns. -/
theorem Base.notOld (base : Base s) (synchronized : s.synchronized = true) : (s.context c).old = false := by
  unfold LuaSystem.synchronized at synchronized
  by_cases small : c < s.contexts
  · exact of_decide_eq_true synchronized c small
  · rw [base.outside c (not_lt.mp small)]
    rfl

/-- An unregistration begins. -/
theorem Base.unregister (base : Base s) (begun : unregisterStep s m = some s') : Base s' := by
  unfold unregisterStep at begun
  split at begun
  · rename_i able
    obtain ⟨idle, isListed⟩ := able
    dsimp only at begun
    let going : LuaLsmModule := { s.module m with state := .going }
    -- a live module is written to, any other one is not
    have begun : s' = { LuaVmSections.aged s with
        module := if (s.module m).state = .live then Function.update s.module m going else s.module
        unregister := .leaving m } := by
      split at begun
      · rename_i live
        cases begun
        rw [if_pos live]
        rfl
      · rename_i dead
        cases begun
        rw [if_neg dead]
        rfl
    have atModule : (s'.module m).name = (s.module m).name ∧ (s'.module m).state ≠ .live := by
      rw [begun]
      dsimp only
      split
      · rw [Function.update_self]
        exact ⟨rfl, by simp [going]⟩
      · rename_i dead
        exact ⟨rfl, dead⟩
    have atOther : ∀ m' ≠ m, s'.module m' = s.module m' := by
      intro m' differs
      rw [begun]
      dsimp only
      split
      · rw [Function.update_of_ne differs]
      · rfl
    have names : ∀ m', (s'.module m').name = (s.module m').name := by
      intro m'
      by_cases same : m' = m
      · rw [same, atModule.1]
      · rw [atOther m' same]
    have present : ∀ m', Present s' m' → Present s m' := by
      intro m' isPresent
      rw [begun] at isPresent
      rcases isPresent with listed | deleted
      · exact .inl listed
      · cases deleted
    have listed : s'.listed = s.listed := by rw [begun]; rfl
    have vms : s'.vm = s.vm := by rw [begun]; rfl
    have work : ∀ c, workOf s' c = workOf s c := by
      intro c
      rw [begun]
      exact aged_work
    have old : ∀ c m', mentions (workOf s c) = some m' → (s'.context c).old = true := by
      intro c m' mention
      rw [begun]
      exact mention_old mention
    have others := base.aged
    constructor
    · rw [begun]
      exact others.blank
    · rw [begun]
      exact others.outside
    · intro a b isA isB
      rw [names a, names b]
      exact base.names a b (present a isA) (present b isB)
    · intro m' isPresent
      have before := base.listed m' (present m' isPresent)
      rw [begun]
      exact before
    · rw [begun]
      exact base.unfreed
    · intro m' isGoing
      rw [begun] at isGoing
      cases isGoing
      rw [listed]
      exact ⟨isListed, atModule.2⟩
    · intro m' deleted
      rw [begun] at deleted
      cases deleted
    · intro c m' mention
      rw [work c] at mention
      obtain ⟨inList, state⟩ := base.seen c m' mention
      rw [listed]
      refine ⟨inList, ?_⟩
      by_cases same : m' = m
      · right
        rw [same]
        refine ⟨?_, old c m' mention⟩
        rw [begun]
      · left
        rw [atOther m' same]
        rcases state with live | ⟨leaving, -⟩
        · exact live
        · rw [idle] at leaving
          cases leaving
    · intro c v
      rw [work c, vms]
      exact base.users c v
    · intro c v m'
      rw [work c, vms]
      exact base.dirtied c v m'
    · intro c v
      rw [work c, vms]
      exact base.exiting c v
    · intro c c' v
      rw [work c, work c']
      exact base.exitsOnce c c' v
    · intro c v before visited
      rw [work c, vms]
      exact base.walks c v before visited
    · intro c v
      rw [work c, vms]
      exact base.emptied c v
    · intro v n m' entry
      rw [vms] at entry
      obtain ⟨isPresent, name⟩ := base.held v n m' entry
      rw [names m']
      refine ⟨.inl ?_, name⟩
      rw [listed]
      rcases isPresent with inList | deleted
      · exact inList
      · rw [idle] at deleted
        cases deleted
    · intro m' v n deleted
      rw [begun] at deleted
      cases deleted
    · rw [vms]
      exact base.clean
    · rw [vms]
      exact base.pooled
    · intro c v m' isStore
      rw [work c] at isStore
      unfold Holds
      rw [vms, names m']
      exact base.stores c v m' isStore
    · intro c c' v m'
      rw [work c, work c']
      exact base.storesOnce c c' v m'
  · cases begun

/-- The passes go on. -/
theorem Base.removing (base : Base s) {pass pass' : RemovePass} {count count' : Int}
    {nbusy nbusy' : Nat} (stage : s.unregister = .removing m pass count nbusy) :
    Base { s with unregister := .removing m pass' count' nbusy' } := by
  have present : ∀ m', (s.listed m' = true ∨
      UnregisterStage.removing m pass' count' nbusy' = .deleted m') → Present s m' := by
    rintro m' (isListed | deleted)
    · exact .inl isListed
    · cases deleted
  refine { base with
    names := ?_, listed := ?_, going := ?_, deleted := ?_, seen := ?_, held := ?_, gone := ?_ }
  · intro a b isA isB
    exact base.names a b (present a isA) (present b isB)
  · intro m' isPresent
    exact base.listed m' (present m' isPresent)
  · intro m' isGoing
    cases isGoing
    exact base.going m (by rw [stage]; rfl)
  · intro m' deleted
    cases deleted
  · intro c m' mention
    obtain ⟨isListed, live | ⟨leaving, -⟩⟩ := base.seen c m' mention
    · exact ⟨isListed, .inl live⟩
    · rw [stage] at leaving
      cases leaving
  · intro v n m' entry
    obtain ⟨isPresent, name⟩ := base.held v n m' entry
    refine ⟨.inl ?_, name⟩
    rcases isPresent with isListed | deleted
    · exact isListed
    · rw [stage] at deleted
      cases deleted
  · intro m' v n deleted
    cases deleted

/-- A `synchronize_srcu` returns. -/
theorem Base.synced (base : Base s) {nbusy : Nat} (synced : syncedStep s nbusy = some s') : Base s' := by
  unfold syncedStep at synced
  split at synced
  · rename_i quiet
    split at synced
    · rename_i m stage
      cases synced
      have present : ∀ m', (s.listed m' = true ∨
          UnregisterStage.removing m .beforeTasks 0 nbusy = .deleted m') → Present s m' := by
        rintro m' (isListed | deleted)
        · exact .inl isListed
        · cases deleted
      refine { base with
        names := ?_, listed := ?_, going := ?_, deleted := ?_, seen := ?_, held := ?_, gone := ?_ }
      · intro a b isA isB
        exact base.names a b (present a isA) (present b isB)
      · intro m' isPresent
        exact base.listed m' (present m' isPresent)
      · intro m' isGoing
        cases isGoing
        exact base.going m (by rw [stage]; rfl)
      · intro m' deleted
        cases deleted
      · intro c m' mention
        obtain ⟨isListed, live | ⟨-, isOld⟩⟩ := base.seen c m' mention
        · exact ⟨isListed, .inl live⟩
        · rw [base.notOld quiet] at isOld
          cases isOld
      · intro v n m' entry
        obtain ⟨isPresent, name⟩ := base.held v n m' entry
        refine ⟨.inl ?_, name⟩
        rcases isPresent with isListed | deleted
        · exact isListed
        · rw [stage] at deleted
          cases deleted
      · intro m' v n deleted
        cases deleted
    · rename_i m stage
      cases synced
      have notListed := base.deleted m stage
      have present : ∀ m', (s.listed m' = true ∨ UnregisterStage.idle = .deleted m') →
          s.listed m' = true ∧ m' ≠ m := by
        rintro m' (isListed | deleted)
        · refine ⟨isListed, ?_⟩
          rintro rfl
          rw [notListed] at isListed
          cases isListed
        · cases deleted
      refine { base with
        names := ?_, listed := ?_, unfreed := ?_, going := ?_, deleted := ?_, seen := ?_, held := ?_,
        gone := ?_ }
      · intro a b isA isB
        exact base.names a b (.inl (present a isA).1) (.inl (present b isB).1)
      · intro m' isPresent
        obtain ⟨isListed, differs⟩ := present m' isPresent
        have before := base.listed m' (.inl isListed)
        dsimp only
        rw [Function.update_of_ne differs]
        exact before
      · intro m' large
        have differs : m' ≠ m := by
          rintro rfl
          exact absurd (base.listed m' (.inr stage)).1 (not_lt.mpr large)
        dsimp only
        rw [Function.update_of_ne differs]
        exact base.unfreed m' large
      · intro m' isGoing
        cases isGoing
      · intro m' deleted
        cases deleted
      · intro c m' mention
        obtain ⟨isListed, live | ⟨leaving, -⟩⟩ := base.seen c m' mention
        · exact ⟨isListed, .inl live⟩
        · rw [stage] at leaving
          cases leaving
      · intro v n m' entry
        obtain ⟨isPresent, name⟩ := base.held v n m' entry
        refine ⟨.inl ?_, name⟩
        rcases isPresent with isListed | deleted
        · exact isListed
        · obtain ⟨c, before, visited, isOld, -⟩ := base.gone m' v n deleted entry
          have young := @Base.notOld s c base quiet
          rw [isOld] at young
          cases young
      · intro m' v n deleted
        cases deleted
    · cases synced
  · cases synced

end Stages

end Ksrc.Guarantees.LuaVmSections

import Ksrc.Guarantees.LuaVmLoads

/-!
# A module is freed when no VM holds it

The unregistration counts what it takes out of the VMs, and an exit what it counts off; when nothing is
left, the VMs that still hold the module are those of exits that the second `synchronize_srcu` waits for.
This holds of the runs in which no load stores the table of a module where there is one. A run in which
the chunk of a module calls a hook that the module has is not one of them: the module is counted twice
for one VM, and is never unregistered again.
-/
namespace Ksrc.Guarantees.LuaVmFreeings
open Source Library LuaVmSections LuaVmLoads

variable {s s' : LuaSystem} {c v m m' : Nat} {a : LuaSystemAction}

section Unregistration

theorem inv_register (inv : Inv s) {module : LuaLsmModule} (registered : registerStep s module = some s') :
    Inv s' := by
  have base := inv.base
  refine ⟨base.register registered, ?_⟩
  unfold registerStep at registered
  split at registered
  · rename_i free
    obtain ⟨idle, -⟩ := free
    cases registered
    intro m inList
    by_cases isNew : m = s.allocated
    · rw [isNew]
      refine ⟨0, Tally.zero fun v => ?_, ?_⟩
      · rintro ⟨entry, -⟩
        have isPresent := (base.held v _ s.allocated entry).1
        exact absurd (base.listed _ isPresent).1 (lt_irrefl _)
      · dsimp only
        rw [setModule_self]
        unfold removals
        rw [show (s.setModule s.allocated _).unregister = s.unregister from rfl, idle]
        rfl
    · dsimp only at inList ⊢
      rw [Function.update_of_ne isNew] at inList
      rw [setModule_other isNew]
      obtain ⟨k, tally, nloaded⟩ := inv.counted m inList
      refine ⟨k, tally.congr fun v => and_congr_left fun _ => ?_, nloaded⟩
      unfold Holds
      dsimp only
      rw [setModule_other isNew]
      rfl
  · cases registered

/-- The modules keep their names and counts. -/
theorem counted_stage (counted : Counted s) (listed : s'.listed = s.listed) (vms : s'.vm = s.vm)
    (work : ∀ c, workOf s' c = workOf s c)
    (module : ∀ m, (s'.module m).name = (s.module m).name ∧
      (s'.module m).nloaded = (s.module m).nloaded)
    (removed : ∀ m, removals s' m = removals s m) : Counted s' := by
  intro m inList
  rw [listed] at inList
  obtain ⟨k, tally, nloaded⟩ := counted m inList
  rw [(module m).2, removed m]
  refine ⟨k, tally.congr fun v => and_congr ?_ (not_congr ?_), nloaded⟩
  · unfold Holds
    rw [vms, (module m).1]
  · exact exists_congr fun c => by rw [work c]

theorem inv_unregister (inv : Inv s) (begun : unregisterStep s m = some s') : Inv s' := by
  refine ⟨inv.base.unregister begun, ?_⟩
  unfold unregisterStep at begun
  split at begun
  · rename_i able
    have idle := able.1
    have nothing : ∀ m', removals s m' = 0 := by
      intro m'
      unfold removals
      rw [idle]
    dsimp only at begun
    split at begun
    · cases begun
      refine counted_stage inv.counted rfl rfl (fun c => aged_work) (fun m' => ?_) fun m' =>
        (nothing m').symm
      dsimp only
      by_cases same : m' = m
      · rw [same, setModule_self]
        exact ⟨rfl, rfl⟩
      · rw [setModule_other same]
        exact ⟨rfl, rfl⟩
    · cases begun
      exact counted_stage inv.counted rfl rfl (fun c => aged_work) (fun m' => ⟨rfl, rfl⟩) fun m' =>
        (nothing m').symm
  · cases begun

theorem inv_synced (inv : Inv s) {nbusy : Nat} (synced : syncedStep s nbusy = some s') : Inv s' := by
  refine ⟨inv.base.synced synced, ?_⟩
  unfold syncedStep at synced
  split at synced
  · split at synced
    · rename_i stage
      cases synced
      refine counted_stage inv.counted rfl rfl (fun c => rfl) (fun m' => ⟨rfl, rfl⟩) fun m' => ?_
      unfold removals
      rw [stage]
      exact ite_self 0
    · rename_i stage
      cases synced
      refine counted_stage inv.counted rfl rfl (fun c => rfl) (fun m' => ⟨rfl, rfl⟩) fun m' => ?_
      unfold removals
      rw [stage]
    · cases synced
  · cases synced

/-- The passes go on with the same count. -/
theorem inv_removing (inv : Inv s) {pass pass' : RemovePass} {count : Int} {nbusy nbusy' : Nat}
    (stage : s.unregister = .removing m pass count nbusy) :
    Inv { s with unregister := .removing m pass' count nbusy' } := by
  refine ⟨inv.base.removing stage, ?_⟩
  refine counted_stage inv.counted rfl rfl (fun c => rfl) (fun m' => ⟨rfl, rfl⟩) fun m' => ?_
  unfold removals
  rw [stage]

theorem inv_advance (inv : Inv s) (advanced : advanceStep s = some s') : Inv s' := by
  unfold advanceStep at advanced
  split at advanced
  · rename_i stage
    dsimp only at advanced
    split at advanced
    · split at advanced <;> cases advanced <;> exact inv_removing inv stage
    · cases advanced
      exact inv_removing inv stage
    · cases advanced
      exact inv_removing inv stage
    · cases advanced
      exact inv_removing inv stage
    · cases advanced
      exact inv_removing inv stage
    · cases advanced
      exact inv_removing inv stage
    · split at advanced <;> cases advanced <;> exact inv_removing inv stage
    · cases advanced
      exact inv_removing inv stage
    · cases advanced
      exact inv_removing inv stage
    · split at advanced <;> cases advanced <;> exact inv_removing inv stage
    · cases advanced
  · cases advanced

/-- Nothing is between two writes for a VM that a pass visits. -/
theorem visited_alone (base : Base s) {pass : RemovePass} {count : Int} {nbusy : Nat}
    (stage : s.unregister = .removing m pass count nbusy)
    (visits : pass.visits (s.vm v).owner = true) : ¬ Between s v m := by
  have notLeaving : ∀ m', s.unregister ≠ .leaving m' := by
    intro m' leaving
    rw [stage] at leaving
    cases leaving
  rintro ⟨d, shows⟩
  cases work : workOf s d with
  | stored v' m' =>
    rw [work] at shows
    obtain ⟨-, rfl⟩ := shows
    exact @not_going s d m' base notLeaving (by rw [stage]; rfl) (by rw [work]; rfl)
  | exiting v' before visited =>
    rw [work] at shows
    obtain ⟨rfl, -⟩ := shows
    rw [base.exiting d v' (by rw [work]; rfl)] at visits
    cases pass <;> cases visits
  | _ =>
    rw [work] at shows
    cases shows

/-- The module is taken out of a VM. -/
theorem inv_removed (inv : Inv s) {pass : RemovePass} {count : Int} {nbusy : Nat}
    (stage : s.unregister = .removing m pass count nbusy)
    (visits : pass.visits (s.vm v).owner = true) (free : s.inUse v = false)
    (entry : s.holds v m = true) :
    Inv { s.setEntry v m none with unregister := .removing m pass (count + 1) nbusy } := by
  have base := inv.base
  have isListed : s.listed m = true := (base.going m (by rw [stage]; rfl)).1
  have holds : Holds s v m := (holds_iff base (.inl isListed)).mp entry
  have fewer : ∀ n m', ((s.setEntry v m none).vm v).modules n = some m' →
      (s.vm v).modules n = some m' := by
    intro n m' found
    rw [setEntry_self] at found
    by_cases isName : n = (s.module m).name
    · rw [isName, Function.update_self] at found
      cases found
    · rwa [Function.update_of_ne isName] at found
  have unused : ∀ d, (workOf s d).uses ≠ some v := by
    intro d user
    have small : d < s.contexts := by
      by_contra large
      unfold workOf at user
      rw [base.outside d (not_lt.mp large)] at user
      cases user
    unfold LuaSystem.inUse at free
    exact of_decide_eq_false free ⟨d, small, user⟩
  have empty : ∀ n, (s.vm v).modules n = none → ((s.setEntry v m none).vm v).modules n = none := by
    intro n isNone
    cases found : ((s.setEntry v m none).vm v).modules n with
    | none => rfl
    | some m' =>
      rw [fewer n m' found] at isNone
      cases isNone
  have out : Base (s.setEntry v m none) := by
    have vm : (s.setEntry v m none).vm v = { s.vm v with
        modules := Function.update (s.vm v).modules (s.module m).name none } := setVm_self
    rw [vm] at fewer empty
    refine base.setVm ⟨?_, ?_, ?_, ?_, ?_, ?_, ?_, ?_, ?_, ?_, ?_⟩
    · refine base.built fun closed => ?_
      rw [closed] at visits
      cases pass <;> cases visits
    · exact fun d => base.users d v
    · exact fun d m' => base.dirtied d v m'
    · exact fun d => base.exiting d v
    · exact fun d before visited walk n m' found =>
        base.walks d v before visited walk n m' (fewer n m' found)
    · exact fun d isReset n => empty n (base.emptied d v isReset n)
    · exact fun n m' found => base.held v n m' (fewer n m' found)
    · exact fun m' n _ found => fewer n m' found
    · exact fun clean n => empty n (base.clean v clean n)
    · exact fun stops differs n => empty n (base.pooled v stops differs n)
    · intro d m' isStore
      exact absurd (by rw [isStore]; rfl) (unused d)
  refine ⟨out.removing (show (s.setEntry v m none).unregister = _ from stage), fun m' inList => ?_⟩
  obtain ⟨k, tally, nloaded⟩ := inv.counted m' inList
  by_cases same : m' = m
  · rw [same] at tally nloaded ⊢
    have counts : Counts s m v := ⟨holds, visited_alone base stage visits⟩
    have positive := tally.pos counts
    refine ⟨k - 1, tally.lose counts fun v' => ?_, ?_⟩
    · by_cases sameVm : v' = v
      · rw [sameVm]
        refine iff_of_false ?_ fun both => both.1 rfl
        rintro ⟨entry', -⟩
        have gone : Holds (s.setEntry v m none) v m := entry'
        unfold Holds at gone
        rw [setEntry_self] at gone
        rw [show (s.setEntry v m none).module = s.module from rfl, Function.update_self] at gone
        cases gone
      · have rest : Counts { s.setEntry v m none with
            unregister := .removing m pass (count + 1) nbusy } m v' ↔ Counts s m v' :=
          and_congr_left fun _ => setEntry_holds fun isHere => absurd isHere sameVm
        rw [rest]
        simp [sameVm]
    · have before : removals s m = count := by
        unfold removals
        rw [stage]
        exact if_pos rfl
      have after : removals { s.setEntry v m none with
          unregister := .removing m pass (count + 1) nbusy } m = count + 1 := if_pos rfl
      rw [after]
      rw [before] at nloaded
      show (s.module m).nloaded = _
      omega
  · refine ⟨k, tally.congr fun v' => and_congr_left fun _ => setEntry_holds fun _ sameName => ?_, ?_⟩
    · exact same (base.names m' m (.inl inList) (.inl isListed) sameName)
    · have before : removals s m' = 0 := by
        unfold removals
        rw [stage]
        exact if_neg (Ne.symm same)
      have after : removals { s.setEntry v m none with
          unregister := .removing m pass (count + 1) nbusy } m' = 0 := if_neg (Ne.symm same)
      rw [after]
      rw [before] at nloaded
      exact nloaded

theorem inv_visit (inv : Inv s) {busy : Bool} (visited : visitStep s v busy = some s') : Inv s' := by
  unfold visitStep at visited
  split at visited
  · rename_i m pass count nbusy stage
    split at visited
    · rename_i visits
      split at visited
      · split at visited
        · cases visited
          exact inv_removing inv stage
        · cases visited
          exact inv
        · cases visited
      · rename_i free
        rw [Bool.or_eq_true, not_or, Bool.not_eq_true, Bool.not_eq_true] at free
        split at visited
        · rename_i entry
          cases visited
          exact inv_removed inv stage visits free.2 entry
        · cases visited
          exact inv
    · cases visited
  · cases visited

/-- A module that no VM is counted for is taken off the list; the VMs that hold it are those of exits. -/
theorem base_delete (inv : Inv s) {count : Int} {nbusy : Nat}
    (stage : s.unregister = .removing m .last count nbusy)
    (left : (s.module m).nloaded - count = 0) :
    Base { aged (s.addLoaded m (-count)) with
      listed := Function.update s.listed m false, unregister := .deleted m } := by
  have base := inv.base
  have isListed : s.listed m = true := (base.going m (by rw [stage]; rfl)).1
  have notLeaving : ∀ m', s.unregister ≠ .leaving m' := by
    intro m' leaving
    rw [stage] at leaving
    cases leaving
  have notDeleted : ∀ m', Present s m' → s.listed m' = true := by
    rintro m' (inList | deleted)
    · exact inList
    · rw [stage] at deleted
      cases deleted
  have before : ∀ m', (Function.update s.listed m false m' = true ∨
      UnregisterStage.deleted m = .deleted m') → Present s m' := by
    rintro m' (inList | deleted)
    · by_cases same : m' = m
      · rw [same, Function.update_self] at inList
        cases inList
      · rw [Function.update_of_ne same] at inList
        exact .inl inList
    · cases deleted
      exact .inl isListed
  have work : ∀ c, workOf (aged (s.addLoaded m (-count))) c = workOf s c := fun c => aged_work
  have between : ∀ v, Holds s v m → Between s v m := by
    obtain ⟨k, tally, nloaded⟩ := inv.counted m isListed
    have removed : removals s m = count := by
      unfold removals
      rw [stage]
      exact if_pos rfl
    have zero : k = 0 := by omega
    rw [zero] at tally
    intro v holds
    by_contra outside
    exact tally.of_zero v ⟨holds, outside⟩
  refine { base.addLoaded.aged with
    names := ?_, listed := ?_, going := ?_, deleted := ?_, seen := ?_, held := ?_, gone := ?_ }
  · intro x y isX isY same
    refine base.names x y (before x isX) (before y isY) ?_
    rw [← @addLoaded_name s m x (-count), ← @addLoaded_name s m y (-count)]
    exact same
  · intro m' isPresent
    exact base.listed m' (before m' isPresent)
  · intro m' isGoing
    cases isGoing
  · intro m' deleted
    cases deleted
    exact Function.update_self ..
  · intro c m' mention
    have mention' : mentions (workOf s c) = some m' := by
      rw [← work c]
      exact mention
    obtain ⟨inList, live | ⟨leaving, -⟩⟩ := base.seen c m' mention'
    · have differs : m' ≠ m := by
        rintro rfl
        exact not_going base notLeaving (by rw [stage]; rfl) mention'
      refine ⟨?_, .inl ?_⟩
      · show Function.update s.listed m false m' = true
        rw [Function.update_of_ne differs]
        exact inList
      · rw [← @addLoaded_state s m m' (-count)] at live
        exact live
    · exact absurd leaving (notLeaving m')
  · intro v n m' entry
    obtain ⟨isPresent, name⟩ := base.held v n m' entry
    refine ⟨?_, ?_⟩
    · by_cases same : m' = m
      · exact .inr (by rw [same])
      · left
        show Function.update s.listed m false m' = true
        rw [Function.update_of_ne same]
        exact notDeleted m' isPresent
    · rw [← @addLoaded_name s m m' (-count)] at name
      exact name
  · intro m' v n deleted entry
    cases deleted
    have name := (base.held v n m entry).2
    have holds : Holds s v m := by
      unfold Holds
      rw [name]
      exact entry
    obtain ⟨c, shows⟩ := between v holds
    cases isWork : workOf s c with
    | stored v' m' =>
      rw [isWork] at shows
      obtain ⟨-, rfl⟩ := shows
      exact absurd (by rw [isWork]; rfl) (@not_going s c m' base notLeaving (by rw [stage]; rfl))
    | exiting v' walk visited =>
      rw [isWork] at shows
      obtain ⟨rfl, inside⟩ := shows
      refine ⟨c, walk, visited, ?_, inside⟩
      obtain ⟨o, here⟩ := inside_of_work (s := s) (c := c) (by
        show workOf s c ≠ .none
        rw [isWork]
        simp)
      show (s.context c).age = _
      rw [here, show (s.context c).work = .exiting v' walk visited from isWork]
      rfl
    | _ =>
      rw [isWork] at shows
      cases shows

/-- A module that some VM is counted for stays as a zombie. -/
theorem base_zombie (base : Base s) {count : Int} {nbusy : Nat}
    (stage : s.unregister = .removing m .last count nbusy) {module : LuaLsmModule}
    (name : module.name = (s.module m).name) (zombie : module.state = .zombie) :
    Base { s.setModule m module with unregister := .idle } := by
  have notLeaving : ∀ m', s.unregister ≠ .leaving m' := by
    intro m' leaving
    rw [stage] at leaving
    cases leaving
  have written : Base (s.setModule m module) := by
    refine base.setModule name (fun _ => by rw [zombie]; simp) fun c mention => ?_
    exact absurd mention (not_going base notLeaving (by rw [stage]; rfl))
  have present : ∀ m', (s.listed m' = true ∨ UnregisterStage.idle = .deleted m') →
      Present (s.setModule m module) m' := by
    rintro m' (inList | deleted)
    · exact .inl inList
    · cases deleted
  refine { written with
    names := ?_, listed := ?_, going := ?_, deleted := ?_, seen := ?_, held := ?_, gone := ?_ }
  · intro x y isX isY
    exact written.names x y (present x isX) (present y isY)
  · intro m' isPresent
    exact written.listed m' (present m' isPresent)
  · intro m' isGoing
    cases isGoing
  · intro m' deleted
    cases deleted
  · intro c m' mention
    obtain ⟨inList, live | ⟨leaving, -⟩⟩ := written.seen c m' mention
    · exact ⟨inList, .inl live⟩
    · exact absurd leaving (notLeaving m')
  · intro v n m' entry
    obtain ⟨isPresent, named⟩ := written.held v n m' entry
    refine ⟨.inl ?_, named⟩
    rcases isPresent with inList | deleted
    · exact inList
    · rw [show (s.setModule m module).unregister = s.unregister from rfl, stage] at deleted
      cases deleted
  · intro m' v n deleted
    cases deleted

theorem inv_finish (inv : Inv s) (finished : finishStep s = some s') : Inv s' := by
  have base := inv.base
  unfold finishStep at finished
  split at finished
  · rename_i m count nbusy stage
    have isListed : s.listed m = true := (base.going m (by rw [stage]; rfl)).1
    have removed : removals s m = count := by
      unfold removals
      rw [stage]
      exact if_pos rfl
    have others : ∀ m' ≠ m, removals s m' = 0 := by
      intro m' differs
      unfold removals
      rw [stage]
      exact if_neg (Ne.symm differs)
    dsimp only at finished
    split at finished
    · rename_i left
      rw [addLoaded_nloaded] at left
      cases finished
      refine ⟨base_delete inv stage (by omega), fun m' inList => ?_⟩
      replace inList : Function.update s.listed m false m' = true := inList
      have differs : m' ≠ m := by
        rintro rfl
        rw [Function.update_self] at inList
        cases inList
      rw [Function.update_of_ne differs] at inList
      obtain ⟨k, tally, nloaded⟩ := inv.counted m' inList
      refine ⟨k, tally.congr fun v => and_congr (@addLoaded_holds s v m m' (-count)) (not_congr ?_), ?_⟩
      · exact @aged_between (s.addLoaded m (-count)) v m'
      · show ((s.addLoaded m (-count)).module m').nloaded = k + 0
        rw [addLoaded_other differs, nloaded, others m' differs]
    · cases finished
      refine ⟨base_zombie base.addLoaded (show (s.addLoaded m (-count)).unregister = _ from stage) rfl rfl,
        fun m' inList => ?_⟩
      obtain ⟨k, tally, nloaded⟩ := inv.counted m' inList
      refine ⟨k, tally.congr fun v => and_congr ?_ Iff.rfl, ?_⟩
      · let zombie : LuaLsmModule := { (s.addLoaded m (-count)).module m with state := .zombie }
        exact (@setModule_holds (s.addLoaded m (-count)) v m m' zombie rfl).trans addLoaded_holds
      · by_cases same : m' = m
        · rw [same] at nloaded ⊢
          show (((s.addLoaded m (-count)).setModule m _).module m).nloaded = k + 0
          rw [setModule_self]
          show ((s.addLoaded m (-count)).module m).nloaded = k + 0
          rw [addLoaded_nloaded, nloaded, removed]
          omega
        · show (((s.addLoaded m (-count)).setModule m _).module m').nloaded = k + 0
          rw [setModule_other same, addLoaded_other same, nloaded, others m' same]
  · cases finished

end Unregistration

section Runs

/-- Contexts, VMs and an unregistration at a time, from a kernel without modules and VMs. -/
def luaSystem : Machine LuaSystem LuaSystemAction where
  start := fun s => (∀ v, s.vm v = .blank) ∧ (∀ c, s.context c = .outside) ∧
    (∀ m, s.listed m = false) ∧ (∀ m, s.freed m = false) ∧ s.unregister = .idle
  step := luaSystemStep

/-- A load stores the table of a module in a VM that has none. -/
def storesNew (s : LuaSystem) : LuaSystemAction → Prop
  | .store c => ∀ v m, (s.context c).work = .loading v m → (s.vm v).modules (s.module m).name = none
  | _ => True

/-- A section of a hook goes on. -/
theorem inv_hook (inv : Inv s) (meets : storesNew s a) (stepped : luaSystemStep s a = some s')
    (hook : ∃ c, a = .enter c ∨ a = .leave c ∨ (∃ v, a = .get c v) ∨ a = .put c ∨ (∃ m, a = .ask c m) ∨
      a = .load c ∨ a = .fail c ∨ a = .store c ∨ a = .count c) : Inv s' := by
  have base := inv.base
  obtain ⟨c, rfl | rfl | ⟨v, rfl⟩ | rfl | ⟨m, rfl⟩ | rfl | rfl | rfl | rfl⟩ := hook
  · simp only [luaSystemStep] at stepped
    split at stepped
    · rename_i able
      cases stepped
      have work : workOf s c = .none := by
        unfold workOf
        rw [able.2]
        rfl
      refine ⟨base.setContext (Goes.plain ?_ (by simp [HookContext.work, mentions])
        (by simp [HookContext.work, SectionWork.uses]) (by simp [HookContext.work]) rfl
        (by simp [HookContext.work]) (by rw [work]; rfl)), inv.counted.setContext fun v m _ _ => ?_⟩
      · intro large
        exact absurd able.1 (not_lt.mpr large)
      · rw [work]
        rfl
    · cases stepped
  · simp only [luaSystemStep] at stepped
    split at stepped
    · rename_i o here
      cases stepped
      refine ⟨base.setContext (Goes.plain (fun _ => rfl) (by simp [HookContext.work, mentions])
        (by simp [HookContext.work, SectionWork.uses]) (by simp [HookContext.work]) rfl
        (by simp [HookContext.work]) (by rw [workOf_here here]; rfl)),
        inv.counted.setContext fun v m _ _ => ?_⟩
      rw [workOf_here here]
      rfl
    · cases stepped
  · simp only [luaSystemStep] at stepped
    split at stepped
    · rename_i o here
      split at stepped
      · rename_i runs
        cases stepped
        refine inv.plain here rfl (by simp) rfl (by simp) (by simp [mentions]) ?_ (by simp)
        intro u user
        cases user
        exact .inr runs
      · cases stepped
    · cases stepped
  · simp only [luaSystemStep] at stepped
    split at stepped
    · rename_i v work
      cases stepped
      obtain ⟨o, here⟩ := inside_of_work (s := s) (c := c) (by rw [work]; simp)
      rw [work] at here
      exact inv.plain here rfl (by simp) rfl (by simp) (by simp [mentions])
        (by simp [SectionWork.uses]) (by simp)
    · cases stepped
  · simp only [luaSystemStep, askStep] at stepped
    split at stepped
    · rename_i v work
      split at stepped
      · rename_i able
        cases stepped
        obtain ⟨o, here⟩ := inside_of_work (s := s) (c := c) (by rw [work]; simp)
        rw [work] at here
        refine inv.plain here rfl (by simp) rfl (by simp) ?_ (fun u user => .inl user) (by simp)
        intro m' mention
        cases mention
        exact .inr able
      · cases stepped
    · cases stepped
  · simp only [luaSystemStep, loadStep] at stepped
    split at stepped
    · rename_i v m work
      obtain ⟨o, here⟩ := inside_of_work (s := s) (c := c) (by rw [work]; simp)
      rw [work] at here
      split at stepped
      · cases stepped
        exact inv.plain here rfl (by simp) rfl (by simp) (by simp [mentions])
          (fun u user => .inl user) (by simp)
      · cases stepped
        have runs := base.users c v (by rw [workOf_here here]; rfl)
        have dirty : Inv (s.setVm v { s.vm v with dirty := true }) := by
          refine inv.same rfl ?_ (fun d => base.users d v) (fun _ => rfl) (fun d => base.exiting d v)
            ?_ (base.pooled v)
          · refine base.built fun closed => ?_
            rw [closed] at runs
            cases runs
          · intro clean
            cases clean
        have here' : (s.setVm v { s.vm v with dirty := true }).context c = .inside o (.asked v m) := here
        refine dirty.plain here' rfl (by simp) rfl (by simp) (fun _ mention => .inl mention)
          (fun u user => .inl user) ?_
        intro u m' isLoad
        cases isLoad
        rw [setVm_self]
    · cases stepped
  · simp only [luaSystemStep, failStep] at stepped
    split at stepped
    · rename_i v m work
      cases stepped
      obtain ⟨o, here⟩ := inside_of_work (s := s) (c := c) (by rw [work]; simp)
      rw [work] at here
      exact inv.plain here rfl (by simp) rfl (by simp) (by simp [mentions])
        (fun u user => .inl user) (by simp)
    · cases stepped
  · simp only [luaSystemStep, storeStep] at stepped
    split at stepped
    · rename_i v m work
      cases stepped
      obtain ⟨o, here⟩ := inside_of_work (s := s) (c := c) (by rw [work]; simp)
      have absent := meets v m work
      rw [work] at here
      exact inv.store here absent
    · cases stepped
  · simp only [luaSystemStep, countStep] at stepped
    split at stepped
    · rename_i v m work
      cases stepped
      obtain ⟨o, here⟩ := inside_of_work (s := s) (c := c) (by rw [work]; simp)
      rw [work] at here
      exact inv.count here
    · cases stepped

theorem inv_step (inv : Inv s) (meets : storesNew s a) (stepped : luaSystemStep s a = some s') :
    Inv s' := by
  cases a with
  | register module => exact inv_register inv stepped
  | build owner => exact inv.build stepped
  | take v owner => exact inv.take stepped
  | exit c v => exact inv.exit stepped
  | countOff c m => exact inv.countOff stepped
  | reset c => exact inv.reset stepped
  | release c full => exact inv.release stepped
  | unregister m => exact inv_unregister inv stepped
  | synced nbusy => exact inv_synced inv stepped
  | visit v busy => exact inv_visit inv stepped
  | advance => exact inv_advance inv stepped
  | finish => exact inv_finish inv stepped
  | enter c => exact inv_hook inv meets stepped ⟨c, by simp⟩
  | leave c => exact inv_hook inv meets stepped ⟨c, by simp⟩
  | get c v => exact inv_hook inv meets stepped ⟨c, by simp⟩
  | put c => exact inv_hook inv meets stepped ⟨c, by simp⟩
  | ask c m => exact inv_hook inv meets stepped ⟨c, by simp⟩
  | load c => exact inv_hook inv meets stepped ⟨c, by simp⟩
  | fail c => exact inv_hook inv meets stepped ⟨c, by simp⟩
  | store c => exact inv_hook inv meets stepped ⟨c, by simp⟩
  | count c => exact inv_hook inv meets stepped ⟨c, by simp⟩

theorem inv_start (started : luaSystem.start s) : Inv s := by
  obtain ⟨blank, outside, unlisted, unfreed, idle⟩ := started
  have nothing : ∀ v n m, (s.vm v).modules n ≠ some m := by
    intro v n m entry
    rw [blank v] at entry
    cases entry
  have quiet : ∀ c, workOf s c = .none := by
    intro c
    unfold workOf
    rw [outside c]
    rfl
  have absent : ∀ m, ¬ Present s m := by
    rintro m (inList | deleted)
    · rw [unlisted m] at inList
      cases inList
    · rw [idle] at deleted
      cases deleted
  refine ⟨?_, fun m inList => absurd (.inl inList) (absent m)⟩
  constructor
  · exact fun v _ => blank v
  · exact fun c _ => outside c
  · exact fun m _ isPresent => absurd isPresent (absent m)
  · exact fun m isPresent => absurd isPresent (absent m)
  · exact fun m _ => unfreed m
  · intro m isGoing
    rw [idle] at isGoing
    cases isGoing
  · exact fun m deleted => absurd (.inr deleted) (absent m)
  · intro c m mention
    rw [quiet c] at mention
    cases mention
  · intro c v user
    rw [quiet c] at user
    cases user
  · intro c v m isLoad
    rw [quiet c] at isLoad
    cases isLoad
  · intro c v isExit
    rw [quiet c] at isExit
    cases isExit
  · intro c c' v isExit
    rw [quiet c] at isExit
    cases isExit
  · intro c v before visited isExit
    rw [quiet c] at isExit
    cases isExit
  · intro c v isExit
    rw [quiet c] at isExit
    cases isExit
  · exact fun v n m entry => absurd entry (nothing v n m)
  · exact fun m v n _ entry => absurd entry (nothing v n m)
  · intro v _ n
    rw [blank v]
    rfl
  · intro v _ _ n
    rw [blank v]
    rfl
  · intro c v m isStore
    rw [quiet c] at isStore
    cases isStore
  · intro c c' v m isStore
    rw [quiet c] at isStore
    cases isStore

/-- The counters agree with the VMs but for the sections that are between two writes, the pooled VMs are
empty, and no VM holds a module that is freed. -/
structure ModulesAgree (s : LuaSystem) : Prop where
  counted : ∀ m, s.listed m = true → ∃ n : Nat,
    Tally n (fun v => Holds s v m ∧ ¬ Between s v m) ∧ (s.module m).nloaded - removals s m = n
  pooled : ∀ v, (s.vm v).owner = .pool → ∀ n, (s.vm v).modules n = none
  freed : ∀ m, s.freed m = true → ∀ v n, (s.vm v).modules n ≠ some m

/-- In every run in which a load only stores a table where there is none. -/
theorem modules_agree (reached : luaSystem.Reachable storesNew s) : ModulesAgree s := by
  have inv : Inv s := reached.invariant (fun _ started => inv_start started)
    fun _ _ _ before meets stepped => inv_step before meets stepped
  refine ⟨fun m inList => ?_, fun v pooled => ?_, fun m freed v n entry => ?_⟩
  · obtain ⟨n, tally, nloaded⟩ := inv.counted m inList
    exact ⟨n, tally, by omega⟩
  · refine inv.base.pooled v ?_ ?_
    · rw [pooled]
      rfl
    · rw [pooled]
      simp
  · have present := (inv.base.held v n m entry).1
    rw [(inv.base.listed m present).2] at freed
    cases freed

/-- Where a load stores a table over one that is there, the counter is one too high when it is counted. -/
theorem second_store (inv : Inv s) {o : Bool} (here : s.context c = .inside o (.loading v m))
    (holds : Holds s v m) :
    ∃ s₁ s₂, luaSystemStep s (.store c) = some s₁ ∧ luaSystemStep s₁ (.count c) = some s₂ ∧
      ¬ Counted s₂ := by
  have base := inv.base
  have isListed : s.listed m = true :=
    (base.seen c m (by rw [workOf_here here]; rfl)).1
  let stored := (s.setEntry v m (some m)).setWork c (.stored v m)
  let counted := (stored.addLoaded m 1).setWork c (.using v)
  have atStore : stored.context c = .inside o (.stored v m) := by
    have before : (s.setEntry v m (some m)).context c = .inside o (.loading v m) := here
    show ((s.setEntry v m (some m)).setWork c (.stored v m)).context c = _
    rw [setWork_eq before, setContext_self]
  have first : luaSystemStep s (.store c) = some stored := by
    show storeStep s c = _
    unfold storeStep
    rw [here]
    rfl
  have second : luaSystemStep stored (.count c) = some counted := by
    show countStep stored c = _
    unfold countStep
    rw [atStore]
    rfl
  refine ⟨stored, counted, first, second, fun agree => ?_⟩
  have between : ∀ v', Between counted v' m ↔ Between s v' m := by
    intro v'
    have inStored : (stored.addLoaded m 1).context c = .inside o (.stored v m) := atStore
    have inLoading : (s.setEntry v m (some m)).context c = .inside o (.loading v m) := here
    constructor
    · rintro ⟨d, shows⟩
      by_cases isHere : d = c
      · rw [isHere, show workOf counted c = .using v from by
          show workOf ((stored.addLoaded m 1).setWork c (.using v)) c = _
          rw [setWork_eq inStored, workOf_self]
          rfl] at shows
        cases shows
      · rw [show workOf counted d = workOf s d from by
          show workOf ((stored.addLoaded m 1).setWork c (.using v)) d = _
          rw [setWork_eq inStored, workOf_other isHere]
          show workOf ((s.setEntry v m (some m)).setWork c (.stored v m)) d = _
          rw [setWork_eq inLoading, workOf_other isHere]
          rfl] at shows
        exact ⟨d, shows⟩
    · rintro ⟨d, shows⟩
      have isOther : d ≠ c := by
        rintro rfl
        rw [workOf_here here] at shows
        cases shows
      refine ⟨d, ?_⟩
      show Shows v' m (workOf ((stored.addLoaded m 1).setWork c (.using v)) d)
      rw [setWork_eq inStored, workOf_other isOther]
      show Shows v' m (workOf ((s.setEntry v m (some m)).setWork c (.stored v m)) d)
      rw [setWork_eq inLoading, workOf_other isOther]
      exact shows
  have holding : ∀ v', Holds counted v' m ↔ Holds s v' m := by
    intro v'
    refine (@addLoaded_holds stored v' m m 1).trans ?_
    by_cases same : v' = v
    · rw [same]
      refine iff_of_true ?_ holds
      show Holds (s.setEntry v m (some m)) v m
      unfold Holds
      rw [setEntry_self]
      exact Function.update_self ..
    · exact setEntry_holds fun isHere => absurd isHere same
  obtain ⟨k, tally, nloaded⟩ := inv.counted m isListed
  obtain ⟨k', tally', nloaded'⟩ := agree m isListed
  have same : k' = k :=
    tally'.unique (tally.congr fun v' => and_congr (holding v') (not_congr (between v')))
  have one : (counted.module m).nloaded = (s.module m).nloaded + 1 := @addLoaded_nloaded stored m 1
  have removed : removals counted m = removals s m := rfl
  omega

end Runs

section Concrete

/-- A kernel with two contexts. -/
def bootedSystem : LuaSystem where
  module := fun _ =>
    { name := [], author := none, description := none, license := none, version := 0, state := .coming,
      hookfuncs := ∅, nhooks := 0, nloaded := 0 }
  listed := fun _ => false
  freed := fun _ => false
  allocated := 0
  vm := fun _ => .blank
  built := 0
  context := fun _ => .outside
  contexts := 2
  unregister := .idle

def newModule : LuaLsmModule :=
  { bootedSystem.module 0 with name := cstr "m".toList, hookfuncs := {0}, nhooks := 1 }

/-- A module is loaded in the VMs of a task and of a CPU; the task exits and its VM is used again; the
module is unregistered. -/
def wholeLife : List LuaSystemAction :=
  [.build .task, .build .cpu, .register newModule,
    .enter 0, .get 0 0, .ask 0 0, .load 0, .store 0, .count 0, .put 0, .leave 0,
    .enter 0, .get 0 1, .ask 0 0, .load 0, .store 0, .count 0, .put 0, .leave 0,
    .enter 0, .exit 0 0, .countOff 0 0, .reset 0, .release 0 false, .leave 0, .take 0 .task,
    .unregister 0, .synced 7, .advance, .visit 0 false, .advance, .advance, .visit 1 false, .advance,
    .advance, .advance, .finish, .synced 0]

/-- The guard as a test. -/
def storesNewTest (s : LuaSystem) : LuaSystemAction → Bool
  | .store c =>
    match (s.context c).work with
    | .loading v m => ((s.vm v).modules (s.module m).name).isNone
    | _ => true
  | _ => true

theorem storesNewTest_sound (s : LuaSystem) (a : LuaSystemAction) (passes : storesNewTest s a = true) :
    storesNew s a := by
  cases a with
  | store c =>
    intro v m work
    unfold storesNewTest at passes
    dsimp only at passes
    rw [work] at passes
    exact Option.isNone_iff_eq_none.mp passes
  | _ => trivial

def afterLife : LuaSystem := (luaSystem.execTested storesNewTest bootedSystem wholeLife).getD bootedSystem

theorem modules_agree_life : afterLife.freed 0 = true ∧ ModulesAgree afterLife := by
  have ran : luaSystem.execTested storesNewTest bootedSystem wholeLife = some afterLife := rfl
  have started : luaSystem.start bootedSystem :=
    ⟨fun _ => rfl, fun _ => rfl, fun _ => rfl, fun _ => rfl, rfl⟩
  exact ⟨rfl, modules_agree ⟨bootedSystem, started,
    Machine.execTested_reaches storesNewTest_sound ran⟩⟩

/-- The chunk of a module calls a hook that the module has: the call in it loads the module, too. -/
def nestedLoad : List LuaSystemAction :=
  [.build .task, .register newModule,
    .enter 0, .get 0 0, .ask 0 0, .load 0,
    .enter 1, .get 1 0, .ask 1 0, .load 1, .store 1, .count 1, .put 1, .leave 1,
    .store 0, .count 0, .put 0, .leave 0]

def afterNested : LuaSystem := (luaSystem.exec bootedSystem nestedLoad).getD bootedSystem

/-- One VM holds the module, which is counted twice. -/
theorem modules_disagree : luaSystem.Reachable Machine.free afterNested ∧ ¬ ModulesAgree afterNested := by
  have ran : luaSystem.exec bootedSystem nestedLoad = some afterNested := rfl
  have started : luaSystem.start bootedSystem :=
    ⟨fun _ => rfl, fun _ => rfl, fun _ => rfl, fun _ => rfl, rfl⟩
  refine ⟨⟨bootedSystem, started, Machine.exec_reaches ran⟩, fun agree => ?_⟩
  obtain ⟨n, tally, nloaded⟩ := agree.counted 0 rfl
  have twice : (afterNested.module 0).nloaded - removals afterNested 0 = 2 := rfl
  have once : n ≤ 1 := by
    refine tally.le_one (x := 0) fun v holds => ?_
    cases v with
    | zero => rfl
    | succ v =>
      have blank : afterNested.vm (v + 1) = .blank := rfl
      have entry := holds.1
      unfold Holds at entry
      rw [blank] at entry
      cases entry
  omega

end Concrete

end Ksrc.Guarantees.LuaVmFreeings

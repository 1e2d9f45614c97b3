import Ksrc.Guarantees.LuaVmSections

/-!
# The modules that the Lua VMs hold are counted

A VM that holds a module is counted in its `nloaded`, or in what the unregistration has removed, unless
a section is between the two writes of a load or of an exit. A load that stores the table of a module
where there is one already is counted twice: the function of a hook, or the chunk of a module, has
called the hook again.
-/
namespace Ksrc.Guarantees.LuaVmLoads
open Source Library LuaVmSections

variable {s s' : LuaSystem} {c v m : Nat} {o : Bool} {w w' : SectionWork}

section Steps

/-- What every step keeps. -/
structure Inv (s : LuaSystem) : Prop where
  base : Base s
  counted : Counted s

/-- A section that does something is in a context. -/
theorem inside_of_work (busy : (s.context c).work ≠ .none) :
    ∃ o, s.context c = .inside o (s.context c).work := by
  cases here : s.context c with
  | outside =>
    rw [here] at busy
    exact absurd rfl busy
  | inside o w => exact ⟨o, rfl⟩

theorem setWork_eq (here : s.context c = .inside o w) (w' : SectionWork) :
    s.setWork c w' = s.setContext c (.inside o w') := by
  unfold LuaSystem.setWork
  rw [here]
  rfl

theorem workOf_here (here : s.context c = .inside o w) : workOf s c = w := by
  unfold workOf
  rw [here]
  rfl

theorem small_of_inside (base : Base s) (here : s.context c = .inside o w) : c < s.contexts := by
  by_contra large
  rw [base.outside c (not_lt.mp large)] at here
  cases here

/-- A section goes on with something that is neither about a stored table nor about an exit. -/
theorem base_plain (base : Base s) (here : s.context c = .inside o w) (noExit : exits w = none)
    (noExit' : exits w' = none) (noStore : ∀ v m, w' ≠ .stored v m)
    (seen : ∀ m, mentions w' = some m → mentions w = some m ∨
      s.listed m = true ∧ (s.module m).state = .live)
    (users : ∀ v, w'.uses = some v → w.uses = some v ∨ (s.vm v).owner.runs = true)
    (dirtied : ∀ v m, w' = .loading v m → (s.vm v).dirty = true) : Base (s.setWork c w') := by
  have work := workOf_here here
  rw [setWork_eq here]
  refine base.setContext (Goes.plain ?_ ?_ ?_ dirtied noExit' noStore ?_)
  · intro large
    exact absurd (small_of_inside base here) (not_lt.mpr large)
  · intro m mention
    rcases seen m mention with before | ⟨isListed, live⟩
    · have found := base.seen c m (by rw [work]; exact before)
      rw [here] at found
      exact found
    · exact ⟨isListed, .inl live⟩
  · intro v isUser
    rcases users v isUser with before | runs
    · exact base.users c v (by rw [work]; exact before)
    · exact runs
  · rw [work]
    exact noExit

/-- A section that shows nothing before and after. -/
theorem counted_plain (counted : Counted s) (here : s.context c = .inside o w)
    (before : ∀ v m, ¬ Shows v m w) (after : ∀ v m, ¬ Shows v m w') : Counted (s.setWork c w') := by
  rw [setWork_eq here]
  refine counted.setContext fun v m _ _ => ?_
  rw [workOf_here here]
  exact iff_of_false (after v m) (before v m)

/-- A module that a section has seen live is not taken out of any VM. -/
theorem not_going (base : Base s) (stage : ∀ m, s.unregister ≠ .leaving m)
    (isGoing : going s.unregister = some m) : mentions (workOf s c) ≠ some m := by
  intro mention
  obtain ⟨-, live | ⟨leaving, -⟩⟩ := base.seen c m mention
  · exact (base.going m isGoing).2 live
  · exact stage m leaving

/-- An entry under the name of a module that is there is that of the module. -/
theorem holds_iff (base : Base s) (present : Present s m) : s.holds v m = true ↔ Holds s v m := by
  unfold LuaSystem.holds Holds
  constructor
  · intro isSome
    obtain ⟨m', entry⟩ := Option.isSome_iff_exists.mp isSome
    obtain ⟨isPresent, name⟩ := base.held v _ m' entry
    rw [entry, base.names m' m isPresent present name]
  · intro entry
    rw [entry]
    rfl

/-- A VM that a section uses is not one that exits. -/
theorem user_stays (base : Base s) {d : Nat} (user : (workOf s c).uses = some v) :
    exits (workOf s d) ≠ some v := by
  intro isExit
  have runs := base.users c v user
  rw [base.exiting d v isExit] at runs
  cases runs

theorem setWork_holds {v' m' : Nat} : Holds (s.setWork c w') v' m' ↔ Holds s v' m' := Iff.rfl

/-- What a section shows of the modules that it does not change. -/
theorem between_setWork (here : s.context c = .inside o w) {v' m' : Nat}
    (same : Shows v' m' w' ↔ Shows v' m' w) : Between (s.setWork c w') v' m' ↔ Between s v' m' := by
  rw [setWork_eq here]
  constructor
  · rintro ⟨d, shows⟩
    by_cases isHere : d = c
    · rw [isHere, workOf_self] at shows
      exact ⟨c, by rw [workOf_here here]; exact same.mp shows⟩
    · rw [workOf_other isHere] at shows
      exact ⟨d, shows⟩
  · rintro ⟨d, shows⟩
    by_cases isHere : d = c
    · rw [isHere, workOf_here here] at shows
      exact ⟨c, by rw [workOf_self]; exact same.mpr shows⟩
    · exact ⟨d, by rwa [workOf_other isHere]⟩

/-- A section that shows a module of a VM. -/
theorem between_here (here : s.context c = .inside o w) {v' m' : Nat} (shows : Shows v' m' w') :
    Between (s.setWork c w') v' m' := by
  rw [setWork_eq here]
  exact ⟨c, by rw [workOf_self]; exact shows⟩

theorem setEntry_self {entry : Option Nat} :
    ((s.setEntry v m entry).vm v).modules =
      Function.update (s.vm v).modules (s.module m).name entry := by
  unfold LuaSystem.setEntry
  rw [setVm_self]

theorem setEntry_other {entry : Option Nat} {v' : Nat} (differs : v' ≠ v) :
    (s.setEntry v m entry).vm v' = s.vm v' :=
  setVm_other differs

/-- The other entries of `_MODULES` stay. -/
theorem setEntry_holds {entry : Option Nat} {v' m' : Nat}
    (differs : v' = v → (s.module m').name ≠ (s.module m).name) :
    Holds (s.setEntry v m entry) v' m' ↔ Holds s v' m' := by
  unfold Holds
  by_cases same : v' = v
  · rw [same, setEntry_self,
      show (s.setEntry v m entry).module = s.module from rfl,
      Function.update_of_ne (differs same)]
  · rw [setEntry_other same]
    rfl

end Steps

section Loads

theorem Inv.plain (inv : Inv s) (here : s.context c = .inside o w) (noExit : exits w = none)
    (noStore : ∀ v m, w ≠ .stored v m) (noExit' : exits w' = none) (noStore' : ∀ v m, w' ≠ .stored v m)
    (seen : ∀ m, mentions w' = some m → mentions w = some m ∨
      s.listed m = true ∧ (s.module m).state = .live)
    (users : ∀ v, w'.uses = some v → w.uses = some v ∨ (s.vm v).owner.runs = true)
    (dirtied : ∀ v m, w' = .loading v m → (s.vm v).dirty = true) : Inv (s.setWork c w') := by
  have none : ∀ u : SectionWork, exits u = none → (∀ v m, u ≠ .stored v m) → ∀ v m, ¬ Shows v m u := by
    intro u noExit noStore v m shows
    cases u with
    | stored v m => exact noStore v m rfl
    | exiting v before visited => cases noExit
    | _ => exact shows
  exact ⟨base_plain inv.base here noExit noExit' noStore' seen users dirtied,
    counted_plain inv.counted here (none w noExit noStore) (none w' noExit' noStore')⟩

/-- The table of a module is stored where there was none. -/
theorem Inv.store (inv : Inv s) (here : s.context c = .inside o (.loading v m))
    (absent : (s.vm v).modules (s.module m).name = none) :
    Inv ((s.setEntry v m (some m)).setWork c (.stored v m)) := by
  have base := inv.base
  have work : workOf s c = .loading v m := workOf_here here
  have mention : mentions (workOf s c) = some m := by rw [work]; rfl
  have user : (workOf s c).uses = some v := by rw [work]; rfl
  have isListed := (base.seen c m mention).1
  have runs := base.users c v user
  have noExit : ∀ d, exits (workOf s d) ≠ some v := fun d => user_stays base user
  have stored : Base (s.setEntry v m (some m)) := by
    refine base.setVm ⟨?_, ?_, ?_, ?_, ?_, ?_, ?_, ?_, ?_, ?_, ?_⟩
    · refine base.built fun closed => ?_
      rw [closed] at runs
      cases runs
    · exact fun d => base.users d v
    · exact fun d m' => base.dirtied d v m'
    · exact fun d isExit => absurd isExit (noExit d)
    · intro d before visited isExit
      exact absurd (by rw [isExit]; rfl) (noExit d)
    · intro d isExit
      exact absurd (by rw [isExit]; rfl) (noExit d)
    · intro n m' entry
      by_cases isName : n = (s.module m).name
      · dsimp only at entry
        rw [isName, Function.update_self] at entry
        cases entry
        exact ⟨.inl isListed, isName.symm⟩
      · dsimp only at entry
        rw [Function.update_of_ne isName] at entry
        exact base.held v n m' entry
    · intro m' n deleted entry
      by_cases isName : n = (s.module m).name
      · dsimp only at entry
        rw [isName, Function.update_self] at entry
        cases entry
        rw [base.deleted m deleted] at isListed
        cases isListed
      · dsimp only at entry
        rwa [Function.update_of_ne isName] at entry
    · intro clean
      dsimp only at clean
      rw [base.dirtied c v m work] at clean
      cases clean
    · intro stops
      dsimp only at stops
      rw [runs] at stops
      cases stops
    · intro d m' isStore
      have entry := base.stores d v m' isStore
      have differs : (s.module m').name ≠ (s.module m).name := by
        intro same
        unfold Holds at entry
        rw [same, absent] at entry
        cases entry
      dsimp only
      rw [Function.update_of_ne differs]
      exact entry
  have here' : (s.setEntry v m (some m)).context c = .inside o (.loading v m) := here
  refine ⟨?_, ?_⟩
  · rw [setWork_eq here']
    refine stored.setContext ⟨?_, ?_, ?_, ?_, ?_, ?_, ?_, ?_, ?_, ?_, ?_⟩
    · intro large
      exact absurd (small_of_inside base here) (not_lt.mpr large)
    · intro m' isMention
      have found := stored.seen c m' (by rw [workOf_here here']; exact isMention)
      rw [here'] at found
      exact found
    · intro v' isUser
      exact stored.users c v' (by rw [workOf_here here']; exact isUser)
    · intro v' m' isLoad
      cases isLoad
    · intro v' isExit
      cases isExit
    · intro v' isExit
      cases isExit
    · intro v' before visited isExit
      cases isExit
    · intro v' isExit
      cases isExit
    · intro m' v' n _ _ before visited isExit
      rw [here'] at isExit
      cases isExit
    · intro v' m' isStore
      cases isStore
      unfold Holds
      rw [setEntry_self]
      exact Function.update_self ..
    · intro v' m' isStore d isStore'
      cases isStore
      have entry := base.stores d v m isStore'
      unfold Holds at entry
      rw [absent] at entry
      cases entry
  · intro m' inList
    obtain ⟨k, tally, nloaded⟩ := inv.counted m' inList
    refine ⟨k, tally.congr fun v' => ?_, nloaded⟩
    by_cases same : v' = v ∧ m' = m
    · obtain ⟨rfl, rfl⟩ := same
      refine iff_of_false ?_ ?_
      · rintro ⟨-, outside⟩
        exact outside (between_here here' ⟨rfl, rfl⟩)
      · rintro ⟨entry, -⟩
        unfold Holds at entry
        rw [absent] at entry
        cases entry
    · refine and_congr (setEntry_holds fun sameVm sameName => ?_) (not_congr (between_setWork here' ?_))
      · exact same ⟨sameVm, base.names m' m (.inl inList) (.inl isListed) sameName⟩
      · refine iff_of_false ?_ id
        rintro ⟨rfl, rfl⟩
        exact same ⟨rfl, rfl⟩

/-- The load is counted. -/
theorem Inv.count (inv : Inv s) (here : s.context c = .inside o (.stored v m)) :
    Inv ((s.addLoaded m 1).setWork c (.using v)) := by
  have base := inv.base
  have work : workOf s c = .stored v m := workOf_here here
  have user : (workOf s c).uses = some v := by rw [work]; rfl
  have here' : (s.addLoaded m 1).context c = .inside o (.stored v m) := here
  have alone : ∀ d, Shows v m (workOf s d) → d = c := by
    intro d shows
    cases other : workOf s d with
    | stored v' m' =>
      rw [other] at shows
      obtain ⟨rfl, rfl⟩ := shows
      exact base.storesOnce d c v' m' other work
    | exiting v' before visited =>
      rw [other] at shows
      obtain ⟨rfl, -⟩ := shows
      exact absurd (by rw [other]; rfl) (@user_stays s c v' base d user)
    | _ =>
      rw [other] at shows
      cases shows
  refine ⟨base_plain (base.addLoaded) here' rfl rfl (by simp) (by simp [mentions]) ?_ (by simp), ?_⟩
  · intro v' isUser
    exact .inl isUser
  · intro m' inList
    obtain ⟨k, tally, nloaded⟩ := inv.counted m' inList
    by_cases same : m' = m
    · rw [same] at tally nloaded ⊢
      refine ⟨k + 1, tally.gain (x := v) ?_ fun v' => ?_, ?_⟩
      · rintro ⟨-, outside⟩
        exact outside ⟨c, by rw [work]; exact ⟨rfl, rfl⟩⟩
      · by_cases sameVm : v' = v
        · rw [sameVm]
          refine iff_of_true ⟨addLoaded_holds.mpr (base.stores c v m work), ?_⟩ (.inl rfl)
          rintro ⟨d, shows⟩
          rw [setWork_eq here'] at shows
          by_cases isHere : d = c
          · rw [isHere, workOf_self] at shows
            exact shows
          · rw [workOf_other isHere] at shows
            exact isHere (alone d shows)
        · have rest : Counts ((s.addLoaded m 1).setWork c (.using v)) m v' ↔ Counts s m v' := by
            refine and_congr (setWork_holds.trans addLoaded_holds) (not_congr ((between_setWork here' ?_).trans Iff.rfl))
            refine iff_of_false id ?_
            rintro ⟨rfl, -⟩
            exact sameVm rfl
          rw [rest]
          simp [sameVm]
      · have one := @addLoaded_nloaded s m 1
        show ((s.addLoaded m 1).module m).nloaded = _
        rw [one, nloaded]
        show _ = _ + removals s m
        push_cast
        omega
    · refine ⟨k, tally.congr fun v' => ?_, ?_⟩
      · refine and_congr (setWork_holds.trans addLoaded_holds) (not_congr ((between_setWork here' ?_).trans Iff.rfl))
        refine iff_of_false id ?_
        rintro ⟨-, rfl⟩
        exact same rfl
      · show ((s.addLoaded m 1).module m').nloaded = _
        rw [addLoaded_other same]
        exact nloaded

end Loads

section Exits

/-- A VM gets another owner or another flag. -/
theorem Inv.same (inv : Inv s) {lvm : LvmState} (modules : lvm.modules = (s.vm v).modules)
    (small : v < s.built) (users : ∀ c, (workOf s c).uses = some v → lvm.owner.runs = true)
    (dirtied : (s.vm v).dirty = true → lvm.dirty = true)
    (exiting : ∀ c, exits (workOf s c) = some v → lvm.owner = .exiting)
    (clean : lvm.dirty = false → ∀ n, lvm.modules n = none)
    (pooled : lvm.owner.runs = false → lvm.owner ≠ .exiting → ∀ n, lvm.modules n = none) :
    Inv (s.setVm v lvm) :=
  ⟨inv.base.setVm (Fits.same inv.base modules small users dirtied exiting clean pooled),
    inv.counted.setVm modules⟩

/-- A section of an exit, which has the VM for itself. -/
theorem base_exit (base : Base s) (here : s.context c = .inside o w) (exit : exits w' = some v)
    (owner : (s.vm v).owner = .exiting)
    (alone : ∀ d, exits (workOf s d) = some v → d = c)
    (walks : ∀ before visited, w' = .exiting v before visited →
      ∀ n m, (s.vm v).modules n = some m → m < before)
    (emptied : w' = .reset v → ∀ n, (s.vm v).modules n = none)
    (gone : ∀ m n, s.unregister = .deleted m → (s.vm v).modules n = some m →
      ∀ before visited, w = .exiting v before visited → m ∈ visited →
        ∃ visited', w' = .exiting v before visited' ∧ m ∈ visited')
    (others : ∀ u, exits w = some u → u = v) : Base (s.setWork c w') := by
  have isExit : ∀ u, exits w' = some u → u = v := by
    intro u found
    rw [exit] at found
    cases found
    rfl
  have mention : mentions w' = none := by
    cases w' with
    | exiting v before visited => rfl
    | reset v => rfl
    | _ => cases exit
  have use : w'.uses = none := by
    cases w' with
    | exiting v before visited => rfl
    | reset v => rfl
    | _ => cases exit
  rw [setWork_eq here]
  refine base.setContext ⟨?_, ?_, ?_, ?_, ?_, ?_, ?_, ?_, ?_, ?_, ?_⟩
  · intro large
    exact absurd (small_of_inside base here) (not_lt.mpr large)
  · intro m found
    rw [show mentions (HookContext.inside o w').work = none from mention] at found
    cases found
  · intro u found
    rw [show (HookContext.inside o w').work.uses = none from use] at found
    cases found
  · intro u m isLoad
    rw [show w' = .loading u m from isLoad] at exit
    cases exit
  · intro u found
    rw [isExit u found]
    exact owner
  · intro u found d other
    rw [isExit u found] at other
    exact alone d other
  · intro u before visited found
    have same := isExit u (by rw [show w' = .exiting u before visited from found]; rfl)
    rw [same]
    exact walks before visited (by rw [← same]; exact found)
  · intro u found
    have same := isExit u (by rw [show w' = .reset u from found]; rfl)
    rw [same]
    exact emptied (by rw [← same]; exact found)
  · intro m u n deleted entry before visited found inside
    rw [here] at found
    injection found with isOld was
    have same : u = v := by
      refine others u ?_
      rw [was]
      rfl
    rw [same] at entry was
    obtain ⟨visited', goes, inside'⟩ := gone m n deleted entry before visited was inside
    exact ⟨visited', by rw [isOld, goes, same], inside'⟩
  · intro u m found
    rw [show w' = .stored u m from found] at exit
    cases exit
  · intro u m found
    rw [show w' = .stored u m from found] at exit
    cases exit

/-- An exit begins. -/
theorem Inv.exit (inv : Inv s) (exited : exitStep s c v = some s') : Inv s' := by
  have base := inv.base
  unfold exitStep at exited
  split at exited
  · rename_i o here
    split at exited
    · rename_i able
      obtain ⟨owner, free⟩ := able
      dsimp only at exited
      have unused : ∀ d, (workOf s d).uses ≠ some v := by
        intro d user
        have small : d < s.contexts := by
          by_contra large
          unfold workOf at user
          rw [base.outside d (not_lt.mp large)] at user
          cases user
        unfold LuaSystem.inUse at free
        exact of_decide_eq_false free ⟨d, small, user⟩
      have noExit : ∀ d, exits (workOf s d) ≠ some v := by
        intro d isExit
        rw [base.exiting d v isExit] at owner
        cases owner
      have leaving : Inv (s.setVm v { s.vm v with owner := .exiting }) := by
        refine inv.same rfl ?_ ?_ id ?_ (base.clean v) ?_
        · refine base.built ?_
          rw [owner]
          simp
        · exact fun d user => absurd user (unused d)
        · exact fun d isExit => rfl
        · intro _ differs
          exact absurd rfl differs
      have here' : (s.setVm v { s.vm v with owner := .exiting }).context c = .inside o .none := here
      have vm : (s.setVm v { s.vm v with owner := .exiting }).vm v = { s.vm v with owner := .exiting } :=
        setVm_self
      have shows : ∀ v m, ¬ Shows v m .none := fun v m => id
      split at exited
      · cases exited
        refine ⟨base_exit (v := v) leaving.base here' rfl (by rw [vm])
          (fun d isExit => absurd isExit (noExit d)) ?_ (by simp) (by simp) (by simp [exits]),
          counted_plain leaving.counted here' shows ?_⟩
        · intro before visited walk n m entry
          cases walk
          obtain ⟨present, -⟩ := leaving.base.held v n m entry
          exact (leaving.base.listed m present).1
        · rintro u m ⟨-, inside⟩
          exact absurd inside List.not_mem_nil
      · rename_i clean
        cases exited
        rw [vm, Bool.not_eq_true] at clean
        refine ⟨base_exit (v := v) leaving.base here' rfl (by rw [vm])
          (fun d isExit => absurd isExit (noExit d)) (by simp) ?_ (by simp) (by simp [exits]),
          counted_plain leaving.counted here' shows fun u m => id⟩
        intro _ n
        rw [vm]
        exact base.clean v clean n
    · cases exited
  · cases exited

/-- The walk meets a module. -/
theorem Inv.countOff (inv : Inv s) (counted : countOffStep s c m = some s') : Inv s' := by
  have base := inv.base
  unfold countOffStep at counted
  split at counted
  · rename_i v before visited work
    split at counted
    · rename_i able
      obtain ⟨isListed, fresh⟩ := able
      dsimp only at counted
      obtain ⟨o, here⟩ := inside_of_work (s := s) (c := c) (by rw [work]; simp)
      rw [work] at here
      have owner := base.exiting c v (by rw [workOf_here here]; rfl)
      have grows : ∀ {t : LuaSystem}, Base t → t.context = s.context → t.vm = s.vm →
          Base (t.setWork c (.exiting v before (m :: visited))) := by
        intro t base' contexts vms
        have here' : t.context c = .inside o (.exiting v before visited) := by rw [contexts, here]
        refine base_exit (v := v) base' here' rfl (by rw [vms, owner]) ?_ ?_ (by simp) ?_ ?_
        · intro d isExit
          exact base'.exitsOnce d c v isExit (by rw [workOf_here here']; rfl)
        · intro before' visited' walk
          cases walk
          exact base'.walks c v before visited (workOf_here here')
        · intro m' n deleted entry before' visited' walk inside
          cases walk
          exact ⟨m :: visited, rfl, List.mem_cons_of_mem m inside⟩
        · intro u isExit
          cases isExit
          rfl
      have others : ∀ v' m', ¬ (v' = v ∧ m' = m) →
          (Shows v' m' (.exiting v before (m :: visited)) ↔ Shows v' m' (.exiting v before visited)) := by
        intro v' m' differs
        refine and_congr_right fun same => ?_
        rw [List.mem_cons, or_iff_right]
        exact fun isHere => differs ⟨same.symm, isHere⟩
      split at counted
      · rename_i entry
        cases counted
        have holds : Holds s v m := (holds_iff base (.inl isListed)).mp entry
        have here' : (s.addLoaded m (-1)).context c = .inside o (.exiting v before visited) := here
        have outside : ¬ Between s v m := by
          rintro ⟨d, shows⟩
          cases other : workOf s d with
          | stored v' m' =>
            rw [other] at shows
            obtain ⟨rfl, -⟩ := shows
            have runs := base.users d v' (by rw [other]; rfl)
            rw [owner] at runs
            cases runs
          | exiting v' before' visited' =>
            rw [other] at shows
            obtain ⟨rfl, inside⟩ := shows
            have isHere := base.exitsOnce d c v' (by rw [other]; rfl) (by rw [workOf_here here]; rfl)
            rw [isHere, workOf_here here] at other
            cases other
            exact fresh inside
          | _ =>
            rw [other] at shows
            cases shows
        refine ⟨grows base.addLoaded rfl rfl, fun m' inList => ?_⟩
        obtain ⟨k, tally, nloaded⟩ := inv.counted m' inList
        by_cases same : m' = m
        · rw [same] at tally nloaded ⊢
          have positive := tally.pos (x := v) ⟨holds, outside⟩
          refine ⟨k - 1, tally.lose (x := v) ⟨holds, outside⟩ fun v' => ?_, ?_⟩
          · by_cases sameVm : v' = v
            · rw [sameVm]
              refine iff_of_false ?_ fun both => both.1 rfl
              rintro ⟨-, outside'⟩
              exact outside' (between_here here' ⟨rfl, List.mem_cons_self⟩)
            · have rest : Counts ((s.addLoaded m (-1)).setWork c (.exiting v before (m :: visited))) m v' ↔
                  Counts s m v' :=
                and_congr (setWork_holds.trans addLoaded_holds) (not_congr
                  ((between_setWork here' (others v' m fun both => sameVm both.1)).trans Iff.rfl))
              rw [rest]
              simp [sameVm]
          · have one := @addLoaded_nloaded s m (-1)
            show ((s.addLoaded m (-1)).module m).nloaded = _
            rw [one, nloaded]
            show _ = _ + removals s m
            omega
        · refine ⟨k, tally.congr fun v' => ?_, ?_⟩
          · exact and_congr (setWork_holds.trans addLoaded_holds) (not_congr
              ((between_setWork here' (others v' m' fun both => same both.2)).trans Iff.rfl))
          · show ((s.addLoaded m (-1)).module m').nloaded = _
            rw [addLoaded_other same]
            exact nloaded
      · rename_i noEntry
        cases counted
        refine ⟨grows base rfl rfl, ?_⟩
        rw [setWork_eq here]
        refine inv.counted.setContext fun v' m' _ holds => ?_
        rw [workOf_here here]
        refine others v' m' ?_
        rintro ⟨rfl, rfl⟩
        exact noEntry ((holds_iff base (.inl isListed)).mpr holds)
    · cases counted
  · cases counted

/-- The VM is emptied. -/
theorem Inv.reset (inv : Inv s) (emptied : resetStep s c = some s') : Inv s' := by
  have base := inv.base
  unfold resetStep at emptied
  split at emptied
  · rename_i v before visited work
    split at emptied
    · rename_i met
      cases emptied
      obtain ⟨o, here⟩ := inside_of_work (s := s) (c := c) (by rw [work]; simp)
      rw [work] at here
      have working := workOf_here here
      have isExit : exits (workOf s c) = some v := by rw [working]; rfl
      have owner := base.exiting c v isExit
      have unused : ∀ d, (workOf s d).uses ≠ some v := fun d user => user_stays base user isExit
      have empty : Base (s.setVm v { s.vm v with modules := fun _ => none, dirty := false }) := by
        refine base.setVm ⟨?_, ?_, ?_, ?_, ?_, ?_, ?_, ?_, ?_, ?_, ?_⟩
        · refine base.built ?_
          rw [owner]
          simp
        · exact fun d user => absurd user (unused d)
        · intro d m isLoad
          exact absurd (by rw [isLoad]; rfl) (unused d)
        · exact fun d found => base.exiting d v found
        · intro d before' visited' _ n m entry
          cases entry
        · exact fun d _ n => rfl
        · intro n m entry
          cases entry
        · intro m n _ entry
          cases entry
        · exact fun _ n => rfl
        · exact fun _ _ n => rfl
        · intro d m isStore
          exact absurd (by rw [isStore]; rfl) (unused d)
      have vm : (s.setVm v { s.vm v with modules := fun _ => none, dirty := false }).vm v =
          { s.vm v with modules := fun _ => none, dirty := false } := setVm_self
      have here' : (s.setVm v { s.vm v with modules := fun _ => none, dirty := false }).context c =
          .inside o (.exiting v before visited) := here
      refine ⟨base_exit (v := v) empty here' rfl ?_ ?_ (by simp) ?_ ?_ ?_, ?_⟩
      · rw [vm]
        exact owner
      · exact fun d found => base.exitsOnce d c v found isExit
      · intro _ n
        rw [vm]
      · intro m n _ entry
        rw [vm] at entry
        cases entry
      · intro u found
        cases found
        rfl
      · intro m inList
        obtain ⟨k, tally, nloaded⟩ := inv.counted m inList
        refine ⟨k, tally.congr fun v' => ?_, nloaded⟩
        by_cases same : v' = v
        · rw [same]
          refine iff_of_false ?_ ?_
          · rintro ⟨entry, -⟩
            have none : Holds (s.setVm v { s.vm v with modules := fun _ => none, dirty := false }) v m :=
              entry
            unfold Holds at none
            rw [vm] at none
            cases none
          · rintro ⟨entry, outside⟩
            refine outside ⟨c, ?_⟩
            rw [working]
            exact ⟨rfl, met m (base.walks c v before visited working _ m entry) inList⟩
        · refine and_congr ?_ (not_congr (between_setWork here' (iff_of_false id ?_)))
          · show Holds (s.setVm v _) v' m ↔ _
            unfold Holds
            rw [setVm_other same]
            rfl
          · rintro ⟨rfl, -⟩
            exact same rfl
    · cases emptied
  · cases emptied

/-- The VM goes back to the pool. -/
theorem Inv.release (inv : Inv s) {full : Bool} (released : releaseStep s c full = some s') : Inv s' := by
  have base := inv.base
  unfold releaseStep at released
  split at released
  · rename_i v work
    cases released
    obtain ⟨o, here⟩ := inside_of_work (s := s) (c := c) (by rw [work]; simp)
    rw [work] at here
    have working := workOf_here here
    have isExit : exits (workOf s c) = some v := by rw [working]; rfl
    have owner := base.exiting c v isExit
    have unused : ∀ d, (workOf s d).uses ≠ some v := fun d user => user_stays base user isExit
    have left : Inv (s.setWork c .none) := by
      refine ⟨?_, counted_plain inv.counted here (fun u m => id) fun u m => id⟩
      rw [setWork_eq here]
      refine base.setContext ⟨?_, ?_, ?_, ?_, ?_, ?_, ?_, ?_, ?_, ?_, ?_⟩
      · intro large
        exact absurd (small_of_inside base here) (not_lt.mpr large)
      · intro m mention
        cases mention
      · intro u user
        cases user
      · intro u m isLoad
        cases isLoad
      · intro u found
        cases found
      · intro u found
        cases found
      · intro u before visited found
        cases found
      · intro u found
        cases found
      · intro m u n _ _ before visited found
        rw [here] at found
        cases found
      · intro u m found
        cases found
      · intro u m found
        cases found
    have alone : ∀ d, exits (workOf (s.setWork c .none) d) ≠ some v := by
      intro d found
      rw [setWork_eq here] at found
      by_cases same : d = c
      · rw [same, workOf_self] at found
        cases found
      · rw [workOf_other same] at found
        exact same (base.exitsOnce d c v found isExit)
    have free : ∀ d, (workOf (s.setWork c .none) d).uses ≠ some v := by
      intro d found
      rw [setWork_eq here] at found
      by_cases same : d = c
      · rw [same, workOf_self] at found
        cases found
      · rw [workOf_other same] at found
        exact unused d found
    have empty := base.emptied c v working
    have given : Inv ((s.setWork c .none).setVm v
        { s.vm v with owner := if full then .closed else .pool }) := by
      refine left.same rfl ?_ ?_ id ?_ (fun _ => empty) fun _ _ => empty
      · refine left.base.built ?_
        rw [show (s.setWork c .none).vm v = s.vm v from rfl, owner]
        simp
      · exact fun d user => absurd user (free d)
      · exact fun d found => absurd found (alone d)
    exact given
  · cases released

/-- A VM is built. -/
theorem Inv.build (inv : Inv s) {owner : LvmOwner} (built : buildStep s owner = some s') : Inv s' := by
  have base := inv.base
  unfold buildStep at built
  split at built
  · rename_i runs
    cases built
    have new := base.blank s.built (le_refl _)
    have more : Inv { s with built := s.built + 1 } := by
      refine ⟨{ base with blank := ?_ }, inv.counted⟩
      intro v large
      exact base.blank v (Nat.le_of_succ_le large)
    have nobody : ∀ d, (workOf s d).uses ≠ some s.built ∧ exits (workOf s d) ≠ some s.built := by
      intro d
      constructor
      · intro user
        have owned := base.users d s.built user
        rw [new] at owned
        cases owned
      · intro isExit
        have owned := base.exiting d s.built isExit
        rw [new] at owned
        cases owned
    have given : Inv (LuaSystem.setVm { s with built := s.built + 1 } s.built
        { LvmState.blank with owner }) := by
      refine more.same ?_ (Nat.lt_succ_self _) ?_ ?_ ?_ (fun _ n => rfl) fun _ _ n => rfl
      · show LvmState.blank.modules = (s.vm s.built).modules
        rw [new]
      · exact fun d user => absurd user (nobody d).1
      · intro isDirty
        rw [show LuaSystem.vm { s with built := s.built + 1 } s.built = s.vm s.built from rfl, new]
          at isDirty
        cases isDirty
      · exact fun d isExit => absurd isExit (nobody d).2
    exact given
  · cases built

/-- A VM is taken from the pool. -/
theorem Inv.take (inv : Inv s) {owner : LvmOwner} (taken : takeStep s v owner = some s') : Inv s' := by
  have base := inv.base
  unfold takeStep at taken
  split at taken
  · rename_i able
    obtain ⟨pooled, runs⟩ := able
    cases taken
    refine inv.same rfl ?_ (fun _ _ => runs) id ?_ (base.clean v) ?_
    · refine base.built ?_
      rw [pooled]
      simp
    · intro d isExit
      have owned := base.exiting d v isExit
      rw [pooled] at owned
      cases owned
    · intro stops
      rw [show ({ s.vm v with owner } : LvmState).owner.runs = true from runs] at stops
      cases stops
  · cases taken

end Exits

end Ksrc.Guarantees.LuaVmLoads

import Ksrc.Guarantees.LuaDispatchStack
import Ksrc.Guarantees.LuaHookCounters

/-!
# The verdicts of the Lua hooks

A denial is a `false`, or a `nil` with an error number after it. The loop ends with the first verdict
that is not 0, so the first denial is the verdict unless it, or what comes before it, is read as something
else: `false` with a second value that is no error number is read as no verdict, and an integer is cut
to an `int` before it is compared.
-/
namespace Ksrc.Guarantees.LuaVerdicts
open Source Library LuaDispatchStack

variable {hook : LuaHook} {lsmModules modules : List LuaLsmModule} {code : Name → LuaBehaviour}
  {module : LuaLsmModule} {loaded : List Name} {values : List LuaTValue} {e : Int}

section Denials

/-- An error number in a value. -/
def errnoOf (v : LuaTValue) : Option Int :=
  if 1 ≤ v.integer ∧ v.integer ≤ MAX_ERRNO then some v.integer else none

/-- The verdict that a denial asks for. -/
def denial : List LuaTValue → Option Int
  | [.boolean false] => some (-EPERM)
  | .boolean false :: w :: _ => some (-(errnoOf w).getD EPERM)
  | .nil :: w :: _ => (errnoOf w).map fun errno => -errno
  | _ => none

/-- The integer of a value in an `int`. -/
def asInt (v : LuaTValue) : Int := v.integer.bmod (2 ^ 32)

/-- Results that are read as something else: `false` and no error number, unless it is cut to 1, or
`nil` and no error number that is cut to one. -/
def Misread : List LuaTValue → Prop
  | .boolean false :: w :: _ => errnoOf w = none ∧ asInt w ≠ 1
  | .nil :: w :: _ => errnoOf w = none ∧ 1 ≤ asInt w ∧ asInt w ≤ MAX_ERRNO
  | _ => False

/-- An error number is the same in an `int`. -/
theorem asInt_errno {v : LuaTValue} (small : 1 ≤ v.integer ∧ v.integer ≤ MAX_ERRNO) :
    asInt v = v.integer := by
  obtain ⟨low, high⟩ := small
  unfold MAX_ERRNO at high
  unfold asInt
  exact Int.bmod_eq_of_le (by omega) (by omega)

/-- What `lua_lsm_pcall_res_errno` makes of an error number. -/
theorem errnoVerdict_eq (v : LuaTValue) : errnoVerdict 0 v =
    if 1 ≤ asInt v ∧ asInt v ≤ MAX_ERRNO then -asInt v else 0 := rfl

theorem errnoVerdict_errno {v : LuaTValue} (found : errnoOf v = some e) :
    errnoVerdict 0 v = -e ∧ 1 ≤ e := by
  unfold errnoOf at found
  split at found
  · rename_i small
    cases found
    rw [errnoVerdict_eq, asInt_errno small, if_pos small]
    exact ⟨rfl, small.1⟩
  · cases found

/-- A denial is negative. -/
theorem denial_neg (denied : denial values = some e) : e < 0 := by
  unfold denial at denied
  split at denied
  · cases denied
    decide
  · rename_i w _
    cases denied
    cases found : errnoOf w with
    | none => decide
    | some errno =>
      have positive := (errnoVerdict_errno found).2
      simp only [Option.getD_some]
      omega
  · rename_i w _
    obtain ⟨errno, found, rfl⟩ := Option.map_eq_some_iff.mp denied
    have positive := (errnoVerdict_errno found).2
    omega
  · cases denied

/-- The reader gives the denial, or 0, unless the results are misread. -/
theorem intVerdict_eq : intVerdict 0 values = (denial values).getD 0 ↔ ¬ Misread values := by
  match values with
  | [] => simp [intVerdict, denial, Misread]
  | [v] =>
    cases v with
    | boolean b => cases b <;> simp [intVerdict, denial, Misread]
    | _ => simp [intVerdict, denial, Misread]
  | v :: w :: rest =>
    cases v with
    | nil =>
      simp only [intVerdict, truth, denial, Misread, Bool.false_eq_true, if_false]
      cases found : errnoOf w with
      | none =>
        rw [errnoVerdict_eq]
        simp only [Option.map_none, Option.getD_none, true_and]
        split
        · rename_i small
          simp only [small, and_self, not_true_eq_false, iff_false]
          omega
        · rename_i large
          simp [large]
      | some errno => simp [(errnoVerdict_errno found).1]
    | boolean b =>
      cases b with
      | true => simp [intVerdict, truth, denial, Misread]
      | false =>
        simp only [intVerdict, truth, denial, Misread, Bool.false_eq_true, if_false]
        cases found : errnoOf w with
        | none =>
          rw [errnoVerdict_eq]
          simp only [Option.getD_none, Option.getD_some, true_and, ne_eq, not_not, EPERM]
          split
          · omega
          · rename_i large
            unfold MAX_ERRNO at large
            omega
        | some errno => simp [(errnoVerdict_errno found).1]
    | _ => simp [intVerdict, truth, denial, Misread]

/-- A reading is never positive. -/
theorem intVerdict_nonpos (values : List LuaTValue) : intVerdict 0 values ≤ 0 := by
  have errno : ∀ w, errnoVerdict 0 w ≤ 0 := by
    intro w
    rw [errnoVerdict_eq]
    split
    · omega
    · exact le_refl 0
  match values with
  | [] => exact le_refl 0
  | [v] =>
    cases v with
    | boolean b => cases b <;> decide
    | _ => exact le_refl 0
  | v :: w :: rest =>
    have read : intVerdict 0 (v :: w :: rest) = if truth v then 0 else errnoVerdict 0 w := by
      simp [intVerdict]
    rw [read]
    split
    · exact le_refl 0
    · exact errno w

end Denials

section Modules

variable (code loaded) in
/-- The results of a module. -/
def resultsOf (m : LuaLsmModule) : List LuaTValue := (moduleRun code loaded m.name).results

variable (code loaded) in
def Denies (m : LuaLsmModule) : Prop := denial (resultsOf code loaded m) ≠ none

variable (code) in
/-- The calls of some modules. -/
def callsOf (modules : List LuaLsmModule) : List Name := modules.flatMap fun m => calls code m.name

/-- Only a call has results. -/
theorem calls_of_results (loaded : List Name) (some : resultsOf code loaded module ≠ []) :
    calls code module.name = [module.name] := by
  unfold resultsOf moduleRun at some
  unfold calls
  by_cases field : (code module.name).field = .function
  · rw [if_pos field]
  · exfalso
    apply some
    split
    · cases value : (code module.name).field with
      | function => exact absurd value field
      | _ => rfl
    · rfl

theorem calls_of_denial (denied : denial (resultsOf code loaded module) = some e) :
    calls code module.name = [module.name] := by
  refine calls_of_results loaded fun none => ?_
  rw [none] at denied
  cases denied

theorem calls_of_verdict (read : intVerdict 0 (resultsOf code loaded module) ≠ 0) :
    calls code module.name = [module.name] := by
  refine calls_of_results loaded fun none => ?_
  rw [none] at read
  exact read rfl

variable (code loaded) in
/-- The verdict and the calls of modules that load. -/
def answer : List LuaLsmModule → Int × List Name
  | [] => (0, [])
  | module :: rest =>
    let ret := intVerdict 0 (resultsOf code loaded module)
    if ret ≠ 0 then (ret, calls code module.name)
    else ((answer rest).1, calls code module.name ++ (answer rest).2)

theorem answer_cons (rest : List LuaLsmModule) : answer code loaded (module :: rest) =
    if intVerdict 0 (resultsOf code loaded module) ≠ 0 then
      (intVerdict 0 (resultsOf code loaded module), calls code module.name)
    else ((answer code loaded rest).1, calls code module.name ++ (answer code loaded rest).2) :=
  rfl

/-- A verdict that is not 0 is that of a call. -/
theorem answer_calls (modules : List LuaLsmModule) (read : (answer code loaded modules).1 ≠ 0) :
    (answer code loaded modules).2 ≠ [] := by
  induction modules with
  | nil => exact absurd rfl read
  | cons module rest ih =>
    rw [answer_cons] at read ⊢
    split
    · rename_i verdict
      rw [calls_of_verdict verdict]
      exact List.cons_ne_nil _ _
    · rename_i none
      rw [if_neg none] at read
      intro empty
      exact ih read (List.append_eq_nil_iff.mp empty).2

/-- The loop over modules that load. -/
theorem verdictOf_answer (isInt : hook.convention = .pcall .int) (zero : hook.lsmRetDefault = 0)
    (present : ∀ m ∈ modules, moduleRun code loaded m.name ≠ .unloaded) :
    verdictOf hook code loaded modules = some (answer code loaded modules) := by
  induction modules with
  | nil =>
    unfold verdictOf answer
    rw [zero]
  | cons module rest ih =>
    obtain ⟨here, later⟩ := List.forall_mem_cons.mp present
    have read : verdict hook (moduleRun code loaded module.name).results =
        intVerdict 0 (resultsOf code loaded module) := by
      unfold verdict resultsOf
      rw [isInt, zero]
    have check : ∀ ret, retCheck hook ret = decide (ret ≠ 0) := by
      intro ret
      unfold retCheck
      rw [isInt, zero]
    rw [verdictOf_present here, read, check, ih later]
    simp only [decide_eq_true_eq]
    rw [answer_cons]
    split
    · rfl
    · rfl

variable (code loaded) in
/-- The verdict is negative exactly where a module denies; it is then that of the first module that
does, and no module after it is called. -/
def Kept (modules : List LuaLsmModule) (ret : Int) (called : List Name) : Prop :=
  (ret < 0 ↔ ∃ m ∈ modules, Denies code loaded m) ∧
  ∀ before m after, modules = before ++ m :: after → (∀ b ∈ before, ¬ Denies code loaded b) →
    ∀ e, denial (resultsOf code loaded m) = some e → ret = e ∧ called = callsOf code (before ++ [m])

variable (code loaded) in
/-- The results up to the first denial are read as they are. -/
def WellRead (modules : List LuaLsmModule) : Prop :=
  UpToFirst (fun m => ¬ Denies code loaded m) (fun m => ¬ Misread (resultsOf code loaded m)) modules

/-- One module more, which does not deny: the others go on after its call. -/
theorem kept_cons (passes : ¬ Denies code loaded module) {ret : Int} {called : List Name} :
    Kept code loaded (module :: modules) ret (calls code module.name ++ called) ↔
      Kept code loaded modules ret called := by
  have denies : (∃ m ∈ module :: modules, Denies code loaded m) ↔
      ∃ m ∈ modules, Denies code loaded m := by
    simp [passes]
  have calledMore : ∀ before, callsOf code (module :: before) =
      calls code module.name ++ callsOf code before := fun _ => List.flatMap_cons
  unfold Kept
  rw [denies]
  refine and_congr Iff.rfl ⟨fun kept before m after split pass e denied => ?_,
    fun kept before m after split pass e denied => ?_⟩
  · have first := kept (module :: before) m after (by rw [split]; rfl)
      (List.forall_mem_cons.mpr ⟨passes, pass⟩) e denied
    rw [List.cons_append, calledMore] at first
    exact ⟨first.1, List.append_cancel_left first.2⟩
  · cases before with
    | nil =>
      cases split
      unfold Denies at passes
      rw [denied] at passes
      exact absurd (by simp) passes
    | cons first before =>
      cases split
      have later := kept before m after rfl (List.forall_mem_cons.mp pass).2 e denied
      rw [List.cons_append, calledMore, later.2]
      exact ⟨later.1, rfl⟩

/-- A first module that denies is called last. -/
theorem kept_first {ret : Int} {called : List Name}
    (denied : denial (resultsOf code loaded module) = some e) :
    Kept code loaded (module :: modules) ret called ↔ ret = e ∧ called = calls code module.name := by
  have denies : Denies code loaded module := by
    unfold Denies
    rw [denied]
    simp
  have alone : callsOf code [module] = calls code module.name := List.flatMap_singleton _ _
  constructor
  · rintro ⟨-, kept⟩
    have first := kept [] module modules rfl (by simp) e denied
    rwa [List.nil_append, alone] at first
  · rintro ⟨rfl, rfl⟩
    refine ⟨⟨fun _ => ⟨module, List.mem_cons_self, denies⟩, fun _ => denial_neg denied⟩, ?_⟩
    intro before m after split pass e' denied'
    cases before with
    | nil =>
      cases split
      rw [denied] at denied'
      cases denied'
      exact ⟨rfl, alone.symm⟩
    | cons first before =>
      cases split
      exact absurd denies (List.forall_mem_cons.mp pass).1

/-- The calls end before a later module that denies. -/
theorem kept_early {ret : Int} (passes : ¬ Denies code loaded module) (negative : ret < 0) :
    ¬ Kept code loaded (module :: modules) ret (calls code module.name) := by
  intro kept
  classical
  have later : ∃ m ∈ modules, ¬ ¬ Denies code loaded m := by
    obtain ⟨m, member, denies⟩ := kept.1.mp negative
    rcases List.mem_cons.mp member with rfl | member
    · exact absurd denies passes
    · exact ⟨m, member, not_not.mpr denies⟩
  obtain ⟨before, m, after, split, pass, denies⟩ := exists_first later
  obtain ⟨e, denied⟩ := Option.ne_none_iff_exists'.mp (not_not.mp denies)
  have called := (kept.2 (module :: before) m after (by rw [split]; rfl)
    (List.forall_mem_cons.mpr ⟨passes, pass⟩) e denied).2
  have more : callsOf code (module :: before ++ [m]) =
      calls code module.name ++ (callsOf code before ++ calls code m.name) := by
    unfold callsOf
    simp
  rw [more, calls_of_denial denied] at called
  have lengths := congrArg List.length called
  simp at lengths

/-- The loop keeps the denials exactly where it reads the results up to the first one. -/
theorem answer_kept : Kept code loaded modules (answer code loaded modules).1
    (answer code loaded modules).2 ↔ WellRead code loaded modules := by
  induction modules with
  | nil =>
    refine iff_of_true ⟨?_, ?_⟩ upToFirst_nil
    · simp [answer]
    · intro before m after split
      simp at split
  | cons module rest ih =>
    unfold WellRead at ih ⊢
    rw [upToFirst_cons, ← ih, answer_cons]
    cases denied : denial (resultsOf code loaded module) with
    | none =>
      have passes : ¬ Denies code loaded module := by
        unfold Denies
        rw [denied]
        simp
      have misread : Misread (resultsOf code loaded module) ↔
          intVerdict 0 (resultsOf code loaded module) ≠ 0 := by
        rw [← not_iff_not, ← intVerdict_eq, denied, not_not]
        rfl
      by_cases read : intVerdict 0 (resultsOf code loaded module) = 0
      · rw [if_neg (not_not.mpr read)]
        dsimp only
        rw [kept_cons passes]
        simp [misread, read, passes]
      · have negative := lt_of_le_of_ne (intVerdict_nonpos (resultsOf code loaded module)) read
        rw [if_pos read]
        dsimp only
        have early := @kept_early rest code module loaded _ passes negative
        simp [early, misread, read]
    | some e =>
      have denies : Denies code loaded module := by
        unfold Denies
        rw [denied]
        simp
      have misread : ¬ Misread (resultsOf code loaded module) ↔
          intVerdict 0 (resultsOf code loaded module) = e := by
        rw [← intVerdict_eq, denied]
        rfl
      have notZero : e ≠ 0 := ne_of_lt (denial_neg denied)
      rw [kept_first denied, misread]
      by_cases read : intVerdict 0 (resultsOf code loaded module) = 0
      · rw [if_neg (not_not.mpr read), read]
        dsimp only
        have others : ¬ ((answer code loaded rest).1 = e ∧
            calls code module.name ++ (answer code loaded rest).2 = calls code module.name) := by
          rintro ⟨verdict, called⟩
          refine answer_calls rest ?_ (List.append_right_eq_self.mp called)
          rw [verdict]
          exact notZero
        exact iff_of_false others fun both => notZero both.1.symm
      · rw [if_pos read]
        simp [denies]

end Modules

section Kept

/-- A module that loads and returns some values. -/
def returning (values : List LuaTValue) : LuaBehaviour where
  loadbuffer := none
  chunk := .returns [.table]
  field := .function
  hook := .returns values

/-- The first of three modules returns nothing, the others deny with 13 and 1. -/
def threeModules (name : Name) : LuaBehaviour :=
  if name = cstr "a".toList then returning []
  else if name = cstr "b".toList then returning [.nil, .number 13]
  else returning [.boolean false]

end Kept

section Entry

/-- With counters that agree with the list, a hook that is not refused by its preparation answers what
the dispatcher answers, whether it is skipped or not. -/
theorem luaLsm_asks {hooks : LuaHooks} {r : LuaRegistry} {prepare : Int}
    (reached : (LuaHookCounters.luaModules hooks).Reachable Machine.free r) (prepared : 0 ≤ prepare)
    (vm : LuaVm) :
    (luaLsm hook prepare r code (some vm)).map Prod.snd =
      (luaLsmDispatch hook r.modules code vm).map Prod.snd := by
  have counted := LuaHookCounters.Counted.reached reached
  unfold luaLsm
  rw [if_neg (not_lt.mpr prepared)]
  split
  · rename_i skipped
    have nobody : r.modules.filter (asked hook) = [] := by
      rw [List.filter_eq_nil_iff]
      intro m member isAsked
      unfold asked at isAsked
      rw [Bool.and_eq_true, decide_eq_true_eq, decide_eq_true_eq] at isAsked
      rw [counted.asked member isAsked.2 isAsked.1] at skipped
      cases skipped
    have run := luaLsmDispatch_eq hook r.modules code vm
    rw [nobody] at run
    obtain ⟨vm', ran, -⟩ := run
    rw [ran]
    rfl
  · dsimp only
    cases luaLsmDispatch hook r.modules code vm with
    | error fault => rfl
    | ok answer => rfl

open LuaHookCounters in
/-- A hook without a live module, behind a zombie and a module of another hook. -/
theorem luaLsm_asks_skipped : hookSkipped zombieRegistry 1 = true ∧
    (luaLsm { fileOpen with nr := 1 } 0 zombieRegistry threeModules (some freshVm)).map Prod.snd =
      (luaLsmDispatch { fileOpen with nr := 1 } zombieRegistry.modules threeModules freshVm).map Prod.snd := by
  have ran : (luaModules twoHooks).exec noModules zombieRun = some zombieRegistry := rfl
  exact ⟨by decide,
    luaLsm_asks ⟨noModules, ⟨rfl, fun _ => rfl, rfl⟩, Machine.exec_reaches ran⟩ (by decide) freshVm⟩

end Entry

end Ksrc.Guarantees.LuaVerdicts

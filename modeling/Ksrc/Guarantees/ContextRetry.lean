import Ksrc.Guarantees.ContextUnmapped
import Ksrc.Guarantees.SidtabReloads

/-!
# The retry of `security_context_to_sid_core`

Source: `security/selinux/ss/services.c` (`security_context_to_sid_core`,
`string_to_context_struct`). The turns after the first one parse what the first one has left of
the string.
-/
namespace Ksrc.Guarantees.ContextRetry

open Library Source SidtabTable SidtabSearch
  SidtabBijection SidtabReloads
  ContextRoundTrip ContextUnmapped

variable {j : Jhash} {defSid : U32} {str : Option (List U8)}

section Parser

variable {p : Policydb} {sidtabp : Option Sidtab} {buf : List U8} {context : Context}

/-- A string without a colon is refused and stays as it is. -/
theorem parse_uncut (uncut : cut 0 colon buf = none) :
    stringToContextStruct p sidtabp buf defSid = (.error einval, buf) := by
  unfold stringToContextStruct
  rw [uncut]

/-- What the parser leaves has no colon before its terminator. -/
theorem parse_leaves : cut 0 colon (stringToContextStruct p sidtabp buf defSid).2 = none := by
  cases found : cut 0 colon buf with
  | none =>
    rw [parse_uncut found]
    exact found
  | some parts =>
    obtain ⟨user, rest⟩ := parts
    obtain ⟨-, -, unseparated⟩ := cut_some found
    unfold stringToContextStruct
    rw [found]
    exact cut_terminated unseparated _

theorem mls_mapped {oldc : U8} {rest : List U8} {ctx : Context}
    (parsed : (mlsContextToSid p oldc rest ctx sidtabp defSid).1 = .ok context) :
    context.str = ctx.str := by
  unfold mlsContextToSid at parsed
  by_cases mls : ¬ p.mlsEnabled = true
  · rw [if_pos mls] at parsed
    split at parsed
    · cases parsed
    · cases parsed
      rfl
  rw [if_neg mls] at parsed
  by_cases absent : oldc = 0
  · rw [if_pos absent] at parsed
    by_cases null : defSid = secsidNull
    · rw [if_pos null] at parsed
      cases parsed
    rw [if_neg null] at parsed
    cases sidtabp with
    | none => cases parsed
    | some s =>
      dsimp only at parsed
      cases search : sidtabSearch s defSid with
      | error e =>
        rw [search] at parsed
        cases parsed
      | ok defcon =>
        rw [search] at parsed
        cases defcon with
        | none => cases parsed
        | some defcon =>
          cases parsed
          rfl
  rw [if_neg absent] at parsed
  cases found : cut 0 dash rest with
  | none =>
    rw [found] at parsed
    dsimp only at parsed
    generalize mlsContextToSidLevel p rest = done at parsed
    obtain ⟨result, buffer⟩ := done
    cases result with
    | error e => cases parsed
    | ok level =>
      cases parsed
      rfl
  | some parts =>
    rw [found] at parsed
    dsimp only at parsed
    generalize mlsContextToSidLevel p parts.1 = done at parsed
    generalize mlsContextToSidLevel p parts.2 = done' at parsed
    obtain ⟨result, buffer⟩ := done
    obtain ⟨result', buffer'⟩ := done'
    cases result with
    | error e => cases parsed
    | ok level =>
      cases result' with
      | error e => cases parsed
      | ok level' =>
        cases parsed
        rfl

theorem type_mapped {ctx : Context} {type : Name} {oldc : U8} {rest : List U8}
    (parsed : (stringToContextType p sidtabp ctx defSid type oldc rest).1 = .ok context) :
    context.str = ctx.str := by
  unfold stringToContextType at parsed
  cases found : symtabSearch p.pTypes type with
  | none =>
    rw [found] at parsed
    cases parsed
  | some typdatum =>
    rw [found] at parsed
    dsimp only at parsed
    by_cases isAttribute : typdatum.isAttribute ≠ 0
    · rw [if_pos isAttribute] at parsed
      cases parsed
    rw [if_neg isAttribute] at parsed
    have mls : (mlsContextToSid p oldc rest { ctx with type := typdatum.value } sidtabp defSid).1 =
        .ok context → context.str = ctx.str := mls_mapped
    generalize mlsContextToSid p oldc rest { ctx with type := typdatum.value } sidtabp defSid = done
      at parsed mls
    obtain ⟨result, buffer⟩ := done
    cases result with
    | error e => cases parsed
    | ok ctx' =>
      dsimp only at parsed mls
      cases checked : policydbContextIsvalid p ctx' with
      | error e =>
        rw [checked] at parsed
        cases parsed
      | ok accepted =>
        rw [checked] at parsed
        cases accepted with
        | false => cases parsed
        | true => exact mls parsed

/-- What is parsed is a mapped context. -/
theorem parse_mapped (parsed : (stringToContextStruct p sidtabp buf defSid).1 = .ok context) :
    context.str = none := by
  unfold stringToContextStruct at parsed
  cases found : cut 0 colon buf with
  | none =>
    rw [found] at parsed
    cases parsed
  | some parts =>
    rw [found] at parsed
    dsimp only [terminate] at parsed
    cases user : symtabSearch p.pUsers parts.1 with
    | none =>
      rw [user] at parsed
      cases parsed
    | some usrdatum =>
      rw [user] at parsed
      dsimp only at parsed
      cases found' : cut 0 colon parts.2 with
      | none =>
        rw [found'] at parsed
        cases parsed
      | some parts' =>
        rw [found'] at parsed
        dsimp only at parsed
        cases role : symtabSearch p.pRoles parts'.1 with
        | none =>
          rw [role] at parsed
          cases parsed
        | some roledatum =>
          rw [role] at parsed
          dsimp only at parsed
          cases found'' : cut 0 colon parts'.2 with
          | none =>
            rw [found''] at parsed
            exact type_mapped parsed
          | some parts'' =>
            rw [found''] at parsed
            exact type_mapped parsed

end Parser

section Loop

variable {pass last : ContextToSidPass} {frozen later : List ContextToSidPass}
  {buf buf' scontext : List U8}

theorem pass_leaves (retried : contextToSidPass j defSid str pass buf = .retry buf') :
    cut 0 colon buf' = none := by
  have left : cut 0 colon (stringToContextStruct pass.policydb (some pass.sidtab) buf defSid).2 =
      none := parse_leaves
  unfold contextToSidPass at retried
  generalize stringToContextStruct pass.policydb (some pass.sidtab) buf defSid = done
    at retried left
  obtain ⟨parsed, buffer⟩ := done
  dsimp only at retried left
  generalize contextOrString parsed str = context at retried
  cases context with
  | error fault =>
    cases fault with
    | oops => cases retried
    | err e => cases retried
  | ok context =>
    dsimp only at retried
    cases answer : pass.sidtabContextToSid j context with
    | none =>
      rw [answer] at retried
      cases retried
    | some out =>
      obtain ⟨rc, sidtab⟩ := out
      rw [answer] at retried
      split at retried
      · cases retried
      · cases retried
        exact left
      · cases retried

/-- After a turn that answered `-ESTALE` there is no colon left. -/
theorem loop_leaves (retried : contextToSidLoop j defSid str frozen scontext = .retry buf) :
    (frozen = [] ∧ buf = scontext) ∨ cut 0 colon buf = none := by
  induction frozen generalizing scontext with
  | nil =>
    cases retried
    exact .inl ⟨rfl, rfl⟩
  | cons pass frozen ih =>
    rw [contextToSidLoop] at retried
    cases turn : contextToSidPass j defSid str pass scontext with
    | retry buf' =>
      rw [turn] at retried
      rcases ih retried with ⟨-, same⟩ | uncut
      · rw [same]
        exact .inr (pass_leaves turn)
      · exact .inr uncut
    | returns rc sidtab =>
      rw [turn] at retried
      cases retried
    | crash =>
      rw [turn] at retried
      cases retried

theorem loop_append (retried : contextToSidLoop j defSid str frozen scontext = .retry buf) :
    contextToSidLoop j defSid str (frozen ++ later) scontext =
      contextToSidLoop j defSid str later buf := by
  induction frozen generalizing scontext with
  | nil =>
    cases retried
    rfl
  | cons pass frozen ih =>
    rw [contextToSidLoop] at retried
    rw [List.cons_append, contextToSidLoop]
    cases turn : contextToSidPass j defSid str pass scontext with
    | retry buf' =>
      rw [turn] at retried
      exact ih retried
    | returns rc sidtab =>
      rw [turn] at retried
      cases retried
    | crash =>
      rw [turn] at retried
      cases retried

theorem loop_last : contextToSidLoop j defSid str [last] buf =
    contextToSidPass j defSid str last buf := by
  rw [contextToSidLoop]
  cases contextToSidPass j defSid str last buf with
  | retry buf' => rfl
  | returns rc sidtab => rfl
  | crash => rfl

end Loop

section Outcome

/-- What the caller learns: an error, or what `context_cmp` compares of the context that the SID
denotes. A last turn that has to be repeated counts as the error it answers. -/
def outcome : PassEnd → Except Fault (Option (List U8 ⊕ (U32 × U32 × U32 × MlsRange)))
  | .returns (.error e) _ => .error (.err e)
  | .returns (.ok sid) sidtab =>
    match sidtabSearchEntryForce sidtab sid with
    | none => .error .oops
    | some entry => .ok (entry.map fun entry => entry.context.identity)
  | .retry _ => .error (.err .ESTALE)
  | .crash => .error .oops

/-- The table has no SID for a context and refuses a new one, or the kernel fails there. -/
def Refuses (j : Jhash) (pass : ContextToSidPass) (context : Context) : Fault → Prop
  | .oops => pass.sidtabContextToSid j context = none
  | .err e => ∃ sidtab, pass.sidtabContextToSid j context = some (.error e, sidtab)

/-- The table of a policy in use, of the first one or of a later one. -/
def InUse {ε : Type} (j : Jhash) (convert : ε → Context → ConvertOutcome) (sidtab : Sidtab) : Prop :=
  ∃ system, (reloadMachine j convert).Reachable Machine.free system ∧ system.source = sidtab

variable {ε : Type} {convert : ε → Context → ConvertOutcome} {last : ContextToSidPass}
  {buf : List U8} {context : Context} {f : Fault}

theorem InUse.ok {sidtab : Sidtab} (inUse : InUse j convert sidtab) :
    TableOk j sidtab 0 ∧ IsidsOk sidtab := by
  obtain ⟨system, run, rfl⟩ := inUse
  have ok := reload_reachable run
  exact ⟨ok.system.source, ok.isids⟩

/-- What a turn ends with once it has its context. -/
def answered (j : Jhash) (pass : ContextToSidPass) (context : Context) :
    Except Fault (Option (List U8 ⊕ (U32 × U32 × U32 × MlsRange))) :=
  match pass.sidtabContextToSid j context with
  | none => .error .oops
  | some (rc, sidtab) => outcome (.returns rc sidtab)

/-- What a turn ends with once the string is parsed. -/
def outcomeOf (j : Jhash) (pass : ContextToSidPass) (str : Option (List U8))
    (parsed : Except Fault Context) :
    Except Fault (Option (List U8 ⊕ (U32 × U32 × U32 × MlsRange))) :=
  match contextOrString parsed str with
  | .error f => .error f
  | .ok context => answered j pass context

theorem outcome_pass : outcome (contextToSidPass j defSid str last buf) =
    outcomeOf j last str
      (stringToContextStruct last.policydb (some last.sidtab) buf defSid).1 := by
  unfold contextToSidPass outcomeOf answered
  cases stringToContextStruct last.policydb (some last.sidtab) buf defSid with
  | mk parsed buffer =>
    dsimp only
    cases contextOrString parsed str with
    | error f =>
      cases f with
      | oops => rfl
      | err e => rfl
    | ok context =>
      dsimp only
      cases last.sidtabContextToSid j context with
      | none => rfl
      | some out =>
        obtain ⟨rc, sidtab⟩ := out
        cases rc with
        | ok sid => rfl
        | error e => cases e with
          | ESTALE => rfl
          | _ => rfl

/-- The SID that is returned denotes the context. -/
theorem answered_denotes (inUse : InUse j convert last.sidtab) {sid : U32} {sidtab : Sidtab}
    (answer : last.sidtabContextToSid j context = some (.ok sid, sidtab)) :
    answered j last context = .ok (some context.identity) := by
  obtain ⟨table, isids⟩ := inUse.ok
  unfold answered
  rw [answer]
  obtain ⟨⟨rc, s, t⟩, done, same⟩ := Option.map_eq_some_iff.mp answer
  cases same
  obtain ⟨entry, found, cmp⟩ := sidtabContextToSid_denotes table isids done
  dsimp only [outcome]
  rw [found]
  refine congrArg Except.ok (congrArg some ?_)
  exact (contextCmp_iff _ _).mp cmp

/-- A turn with a context fails as the table does, or its SID denotes the context. -/
theorem answered_cases (inUse : InUse j convert last.sidtab) (context : Context) :
    (∃ f, answered j last context = .error f) ∨
      answered j last context = .ok (some context.identity) := by
  cases answer : last.sidtabContextToSid j context with
  | none =>
    refine .inl ⟨.oops, ?_⟩
    unfold answered
    rw [answer]
  | some out =>
    obtain ⟨rc, sidtab⟩ := out
    cases rc with
    | ok sid => exact .inr (answered_denotes inUse answer)
    | error e =>
      refine .inl ⟨.err e, ?_⟩
      unfold answered
      rw [answer]
      rfl

theorem refuses_iff (inUse : InUse j convert last.sidtab) :
    Refuses j last context f ↔ answered j last context = .error f := by
  unfold Refuses
  cases answer : last.sidtabContextToSid j context with
  | none =>
    unfold answered
    rw [answer]
    cases f with
    | oops => exact iff_of_true rfl rfl
    | err e => exact iff_of_false nofun nofun
  | some out =>
    obtain ⟨rc, sidtab⟩ := out
    cases rc with
    | ok sid =>
      rw [answered_denotes inUse answer]
      cases f with
      | oops => exact iff_of_false nofun nofun
      | err e => exact iff_of_false nofun nofun
    | error e =>
      unfold answered
      rw [answer]
      cases f with
      | oops => exact iff_of_false nofun nofun
      | err e' =>
        constructor
        · rintro ⟨sidtab', same⟩
          cases same
          rfl
        · intro same
          cases same
          exact ⟨sidtab, rfl⟩

/-- A conversion that fails in a turn has run out of memory. -/
theorem converted_errors (converted : Option Context) (failure : Errno × Context) :
    (match converted with
      | some converted => (.ok converted : ConvertOutcome)
      | none => .error (.ENOMEM, contextInit)) = .error failure → failure.1 = .ENOMEM := by
  cases converted with
  | none =>
    intro same
    cases same
    rfl
  | some converted =>
    intro same
    cases same

/-- `-EINVAL` is not an answer of the table. -/
theorem refuses_einval : ¬ Refuses j last context einval := by
  rintro ⟨sidtab, answer⟩
  obtain ⟨⟨rc, s, t⟩, done, same⟩ := Option.map_eq_some_iff.mp answer
  cases same
  have memory := converted_errors (last.converted context)
  rcases sidtabContextToSid_errors memory done with stale | full | short
  · cases stale
  · cases full
  · cases short

end Outcome

section Transparency

variable {ε : Type} {convert : ε → Context → ConvertOutcome} {last : ContextToSidPass}
  {frozen : List ContextToSidPass} {scontext : List U8} {force : Bool}

/-- The copy of the string that `force` makes. -/
def copied (force : Bool) (scontext : List U8) : Option (List U8) :=
  if force then some (cString scontext) else none

/-- The policy of the last turn reads the whole string as. -/
def parsedBy (last : ContextToSidPass) (scontext : List U8) (defSid : U32) : Except Fault Context :=
  (stringToContextStruct last.policydb (some last.sidtab) scontext defSid).1

/-- When a retry does not show: no turn was repeated, the string has no colon, the policy of the
last turn refuses it, or under `force` the table refuses its context and the string alike. -/
def Transparent (j : Jhash) (frozen : List ContextToSidPass) (last : ContextToSidPass)
    (scontext : List U8) (defSid : U32) (force : Bool) : Prop :=
  frozen = [] ∨ colon ∉ cString scontext ∨ parsedBy last scontext defSid = .error einval ∨
    (force = true ∧ ∃ f, Refuses j last (unmapped (cString scontext)) f ∧
      (parsedBy last scontext defSid = .error f ∨
        ∃ context, parsedBy last scontext defSid = .ok context ∧ Refuses j last context f))

/-- A repeated turn sees no colon and takes the string for refused. -/
theorem outcome_uncut {buf : List U8} (uncut : cut 0 colon buf = none) :
    outcome (contextToSidPass j defSid (copied force scontext) last buf) =
      if force then answered j last (unmapped (cString scontext)) else .error einval := by
  rw [outcome_pass, parse_uncut uncut]
  cases force with
  | true => rfl
  | false => rfl

theorem transparent_iff {buf : List U8} (inUse : InUse j convert last.sidtab)
    (uncut : cut 0 colon buf = none) :
    outcome (contextToSidPass j defSid (copied force scontext) last buf) =
        outcome (contextToSidPass j defSid (copied force scontext) last scontext) ↔
      parsedBy last scontext defSid = .error einval ∨
        (force = true ∧ ∃ f, Refuses j last (unmapped (cString scontext)) f ∧
          (parsedBy last scontext defSid = .error f ∨
            ∃ context, parsedBy last scontext defSid = .ok context ∧ Refuses j last context f)) := by
  have only : OnlyEinval (parsedBy last scontext defSid) := onlyEinval_struct _ _ _
  have mapped : ∀ context, parsedBy last scontext defSid = .ok context → context.str = none :=
    fun context parsed => parse_mapped parsed
  rw [outcome_uncut uncut, outcome_pass]
  change _ = outcomeOf j last _ (parsedBy last scontext defSid) ↔ _
  generalize parsedBy last scontext defSid = parsed at only mapped ⊢
  simp only [refuses_iff inUse]
  have raw := answered_cases inUse (unmapped (cString scontext))
  cases parsed with
  | error f =>
    cases f with
    | err e =>
      cases only e rfl
      refine iff_of_true ?_ (.inl rfl)
      cases force with
      | true => rfl
      | false => rfl
    | oops =>
      have crash : outcomeOf j last (copied force scontext) (.error .oops) = .error .oops := by
        cases force with
        | true => rfl
        | false => rfl
      rw [crash]
      cases force with
      | false =>
        refine iff_of_false nofun ?_
        rintro (same | ⟨forced, -⟩)
        · cases same
        · cases forced
      | true =>
        rw [if_pos rfl]
        constructor
        · intro same
          exact .inr ⟨rfl, .oops, same, .inl rfl⟩
        · rintro (same | ⟨-, f, refused, same | ⟨context, same, -⟩⟩)
          · cases same
          · cases same
            exact refused
          · cases same
  | ok context =>
    have isMapped := mapped context rfl
    have fresh := answered_cases inUse context
    have turn : outcomeOf j last (copied force scontext) (.ok context) = answered j last context := by
      cases force with
      | true => rfl
      | false => rfl
    rw [turn]
    cases force with
    | false =>
      refine iff_of_false (fun same => ?_) ?_
      · exact refuses_einval ((refuses_iff inUse).mpr same.symm)
      · rintro (same | ⟨forced, -⟩)
        · cases same
        · cases forced
    | true =>
      rw [if_pos rfl]
      constructor
      · intro same
        rcases raw with ⟨f, refused⟩ | denoted
        · exact .inr ⟨rfl, f, refused, .inr ⟨context, rfl, same.symm.trans refused⟩⟩
        · rw [denoted] at same
          rcases fresh with ⟨f, refused⟩ | denoted'
          · rw [refused] at same
            cases same
          · rw [denoted'] at same
            unfold Context.identity at same
            rw [isMapped] at same
            cases same
      · rintro (same | ⟨-, f, refused, same | ⟨context', same, refused'⟩⟩)
        · cases same
        · cases same
        · cases same
          exact refused.trans refused'.symm

/-- However many turns answered `-ESTALE`, the outcome is that of one call under the last policy
exactly where the retry does not show. -/
theorem retry_transparent_iff (inUse : InUse j convert last.sidtab)
    (stale : ∃ buf, contextToSidLoop j defSid (copied force scontext) frozen scontext = .retry buf)
    (sidtab : Sidtab) :
    outcome (securityContextToSidCore j true sidtab (frozen ++ [last]) scontext defSid force) =
        outcome (securityContextToSidCore j true sidtab [last] scontext defSid force) ↔
      Transparent j frozen last scontext defSid force := by
  obtain ⟨buf, retried⟩ := stale
  unfold Transparent
  by_cases empty : scontext = []
  · have noColon : colon ∉ cString scontext := by
      rw [empty]
      exact List.not_mem_nil
    unfold securityContextToSidCore
    rw [if_pos empty, if_pos empty]
    exact iff_of_true rfl (.inr (.inl noColon))
  unfold securityContextToSidCore
  rw [if_neg empty, if_neg empty, if_neg (not_not.mpr rfl), if_neg (not_not.mpr rfl)]
  change outcome (contextToSidLoop j defSid (copied force scontext) (frozen ++ [last]) scontext) =
    outcome (contextToSidLoop j defSid (copied force scontext) [last] scontext) ↔ _
  rw [loop_append retried, loop_last, loop_last]
  by_cases none : frozen = []
  · rw [none] at retried
    cases retried
    exact iff_of_true rfl (.inl none)
  rw [or_iff_right none]
  have uncut : cut 0 colon buf = .none := by
    rcases loop_leaves retried with ⟨empty, -⟩ | uncut
    · exact absurd empty none
    · exact uncut
  by_cases hasColon : colon ∈ cString scontext
  · rw [or_iff_right (not_not.mpr hasColon)]
    exact transparent_iff inUse uncut
  · have uncut' : cut 0 colon scontext = .none := cut_eq_none_iff.mpr hasColon
    rw [outcome_uncut uncut, outcome_uncut uncut']
    exact iff_of_true rfl (.inl hasColon)

end Transparency

section Reload

/-- A policy that accepts `u:r:t`. -/
def plainPolicy : Policydb := smallPolicy false ⟨s0 [], s0 []⟩ []

def label : List U8 := cstr ['u', ':', 'r', ':', 't']

/-- A turn with a table that has no contexts, frozen or not. -/
def turnWith (frozen : Bool) : ContextToSidPass where
  policydb := plainPolicy
  sidtab := { sidtabInit with frozen }
  target := sidtabInit
  allocs := [true]
  targetAllocs := []
  fault := none
  converted := some

theorem sidtabInit_inUse : InUse xorJhash noConversion (turnWith false).sidtab :=
  ⟨bootSidtab, ⟨bootSidtab, ⟨rfl, rfl, rfl, rfl⟩, Relation.ReflTransGen.refl⟩, rfl⟩

/-- A string without a colon is kept as it is, whatever was repeated. -/
theorem retry_transparent_uncut :
    outcome (securityContextToSidCore xorJhash true sidtabInit [turnWith true, turnWith false]
        (cstr ['u']) 0 true) =
      outcome (securityContextToSidCore xorJhash true sidtabInit [turnWith false] (cstr ['u']) 0
        true) :=
  (retry_transparent_iff sidtabInit_inUse
    (show ∃ buf, contextToSidLoop xorJhash 0 (copied true (cstr ['u'])) [turnWith true]
      (cstr ['u']) = .retry buf from ⟨cstr ['u'], rfl⟩)
    sidtabInit).mpr (.inr (.inl (by decide)))

/-- A label that the policy accepts is refused by a turn after the first one, or under `force`
kept as a string. -/
theorem retry_shows :
    (∀ force, (∃ buf, securityContextToSidCore xorJhash true sidtabInit [turnWith true] label 0 force =
        .retry buf) ∧
      outcome (securityContextToSidCore xorJhash true sidtabInit [turnWith false] label 0 force) =
        .ok (some (labelled 2 contextInit.range.low contextInit.range.high).identity) ∧
      outcome (securityContextToSidCore xorJhash true sidtabInit [turnWith true, turnWith false] label
        0 force) ≠
      outcome (securityContextToSidCore xorJhash true sidtabInit [turnWith false] label 0 force)) ∧
    outcome (securityContextToSidCore xorJhash true sidtabInit [turnWith true, turnWith false] label
      0 false) = .error einval ∧
    outcome (securityContextToSidCore xorJhash true sidtabInit [turnWith true, turnWith false] label
      0 true) = .ok (some (unmapped label).identity) := by
  refine ⟨fun force => ⟨?_, ?_, ?_⟩, by decide, by decide⟩
  · cases force with
    | true => exact ⟨_, rfl⟩
    | false => exact ⟨_, rfl⟩
  · cases force with
    | true => decide
    | false => decide
  · cases force with
    | true => decide
    | false => decide

end Reload

end Ksrc.Guarantees.ContextRetry

import Ksrc.Source.ContextString

/-!
# Transitions to bounded types

Source: `security/selinux/ss/services.c` (`security_bounded_transition`).
-/
namespace Ksrc.Source

/-- The loop of `security_bounded_transition`; `none` if it has not ended after so many rounds. -/
def boundedTransitionLoop (p : Policydb) (oldType : U32) : Nat → U32 → Option (Except Fault Unit)
  | 0, _ => none
  | rounds + 1, index =>
    match atValue p.typeValToStruct index with
    | .error e => some (.error e)
    | .ok none => some (.error .oops)
    | .ok (some type) =>
      if type.bounds = 0 then some (.error (.err .EPERM))
      else if type.bounds = oldType then some (.ok ())
      else boundedTransitionLoop p oldType rounds type.bounds

/-- The record of a transition that is denied prints both contexts; their strings are not in the
cache. -/
def boundedTransitionAudit (p : Policydb) (oldContext newContext : Context) :
    Except Fault Unit → Except Fault Unit
  | .ok () => .ok ()
  | .error .oops => .error .oops
  | .error (.err e) => do
    let _ ← contextStructToString p oldContext
    let _ ← contextStructToString p newContext
    .error (.err e)

/-- `security_bounded_transition`, with at most so many rounds of its loop. -/
def securityBoundedTransition (rounds : Nat) (policy : Option SelinuxPolicy) (oldSid newSid : U32) :
    Option (Except Fault Unit) :=
  match policy with
  | none => some (.ok ())
  | some policy =>
    match sidtabSearch policy.sidtab oldSid, sidtabSearch policy.sidtab newSid with
    | .ok (some oldContext), .ok (some newContext) =>
      -- type/domain unchanged
      if oldContext.type = newContext.type then some (.ok ())
      else (boundedTransitionLoop policy.policydb oldContext.type rounds newContext.type).map
        (boundedTransitionAudit policy.policydb oldContext newContext)
    | .error e, _ => some (.error e)
    | .ok none, _ => some (.error einval)
    | .ok (some _), .error e => some (.error e)
    | .ok (some _), .ok none => some (.error einval)

end Ksrc.Source

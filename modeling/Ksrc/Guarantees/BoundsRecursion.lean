import Ksrc.Guarantees.PolicyImages
import Ksrc.Guarantees.PolicydbShape
import Ksrc.Library.Chains
import Ksrc.Source.BoundedTransition

/-!
# The walks along the bounds of types end

Source: `security/selinux/ss/services.c` (`context_struct_compute_av`,
`type_attribute_bounds_av`, `security_bounded_transition`), `policydb.c`
(`type_bounds_sanity_check`).

The check at load time has followed the bounds of every type of the policy; a type that is not in the
array ends a walk with a `BUG()`.
-/
namespace Ksrc.Guarantees.BoundsRecursion

open Library Source PolicydbShape PolicyImages

/-- The type that bounds a type. -/
def typeBound (p : Policydb) (type : U32) : Option U32 :=
  match p.typeValToStruct[(type - 1).toNat]? with
  | some (some datum) => if datum.bounds = 0 then none else some datum.bounds
  | _ => none

/-- `old` is a proper ancestor of `new` under bounds. -/
def BoundedBy (p : Policydb) (new old : U32) : Prop := Ahead (typeBound p) new old

section Chains

variable {p : Policydb} {bytes rest : List U8} {type : U32} {datum : TypeDatum} {n : Nat}

theorem typeBound_slot (slot : p.typeValToStruct[(type - 1).toNat]? = some (some datum)) :
    typeBound p type = if datum.bounds = 0 then none else some datum.bounds := by
  unfold typeBound
  rw [slot]

theorem atValue_ok {α : Type} {array : List α} {value : U32} {a : α}
    (read : atValue array value = .ok a) : array[(value - 1).toNat]? = some a := by
  unfold atValue at read
  split at read
  · rename_i found
    cases read
    exact found
  · cases read

/-- A chain that the check has followed ends. -/
theorem boundsLoop_ends (slot : p.typeValToStruct[(type - 1).toNat]? = some (some datum))
    (checked : boundsLoop TypeDatum.bounds p.typeValToStruct notAttribute n datum = .ok ()) :
    EndsWithin (typeBound p) n type := by
  induction n generalizing type datum with
  | zero =>
    unfold boundsLoop at checked
    split at checked
    · rename_i unbounded
      refine endsWithin_of_none ?_
      rw [typeBound_slot slot, if_pos unbounded]
    · cases checked
  | succ n ih =>
    unfold boundsLoop at checked
    split at checked
    · rename_i unbounded
      refine endsWithin_of_none ?_
      rw [typeBound_slot slot, if_pos unbounded]
    · rename_i bounded
      simp only [exceptBind_ok] at checked
      obtain ⟨entry, read, upper, pointer, _, -, later⟩ := checked
      intro b link
      rw [typeBound_slot slot, if_neg bounded] at link
      cases link
      cases entry with
      | none => cases pointer
      | some found =>
        cases pointer
        exact ih (atValue_ok read) later

/-- Every walk along the bounds of a policy of that shape ends. -/
theorem shape_bounds_end (shape : PolicyShape p) (type : U32) :
    EndsWithin (typeBound p) (policydbBoundsMaxdepth - 1) type := by
  cases slot : p.typeValToStruct[(type - 1).toNat]? with
  | none =>
    refine endsWithin_of_none ?_
    unfold typeBound
    rw [slot]
  | some entry =>
    cases entry with
    | none =>
      refine endsWithin_of_none ?_
      unfold typeBound
      rw [slot]
    | some datum =>
      have member : some datum ∈ p.typeValToStruct := List.mem_of_getElem? slot
      exact boundsLoop_ends slot (shape.typeBounds datum member)

/-- Every walk along the bounds of an accepted policy ends. -/
theorem bounds_end (read : policydbRead bytes = .ok (p, rest)) (type : U32) :
    EndsWithin (typeBound p) (policydbBoundsMaxdepth - 1) type :=
  shape_bounds_end (policydbRead_shape read) type

end Chains

section ComputeAv

variable {p : Policydb} {scontext tcontext : Context} {n : Nat}

/-- The source of the decision for the bounds has the type that bounds the source. -/
theorem boundingContexts_source {lo : Context × Context}
    (bounding : boundingContexts p scontext tcontext = .ok (some lo)) :
    typeBound p scontext.type = some lo.1.type := by
  unfold boundingContexts at bounding
  simp only [exceptBind_ok] at bounding
  obtain ⟨entry, read, source, pointer, bounding⟩ := bounding
  cases entry with
  | none => cases pointer
  | some datum =>
    cases pointer
    rw [typeBound_slot (atValue_ok read)]
    split at bounding
    · cases bounding
    · rename_i bounded
      simp only [exceptBind_ok] at bounding
      obtain ⟨_, -, _, -, made⟩ := bounding
      cases made
      rw [if_neg bounded]

/-- The recursion goes no deeper than the chain of bounds of the source. -/
theorem computeAv_depth (ends : EndsWithin (typeBound p) n scontext.type) (more : Nat)
    (tclass : U16) (avd : AvDecision) (xperms : Option ExtendedPerms) :
    contextStructComputeAvDepth p (n + 1 + more) scontext tcontext tclass avd xperms =
      contextStructComputeAvDepth p (n + 1) scontext tcontext tclass avd xperms := by
  induction n generalizing scontext tcontext avd xperms with
  | zero =>
    rw [Nat.add_right_comm]
    unfold contextStructComputeAvDepth
    dsimp only
    cases bounding : boundingContexts p scontext tcontext with
    | error e => rfl
    | ok lo =>
      cases lo with
      | none => rfl
      | some lo =>
        have link := boundingContexts_source bounding
        rw [show typeBound p scontext.type = none from ends] at link
        cases link
  | succ n ih =>
    rw [Nat.add_right_comm]
    unfold contextStructComputeAvDepth
    dsimp only
    cases bounding : boundingContexts p scontext tcontext with
    | error e => rfl
    | ok lo =>
      cases lo with
      | none => rfl
      | some lo =>
        have later := ends.tail (boundingContexts_source bounding)
        dsimp only
        rw [ih later]

end ComputeAv

section Transition

variable {p : Policydb} {oldType newType : U32} {n : Nat}

/-- A type that is not bounded, or is none at all, ends the loop. -/
theorem transitionRound_none (unbounded : typeBound p newType = none) :
    ∃ e, boundedTransitionLoop p oldType (n + 1) newType = some (.error e) := by
  unfold boundedTransitionLoop atValue
  unfold typeBound at unbounded
  cases slot : p.typeValToStruct[(newType - 1).toNat]? with
  | none => exact ⟨.oops, rfl⟩
  | some entry =>
    cases entry with
    | none => exact ⟨.oops, rfl⟩
    | some datum =>
      rw [slot] at unbounded
      dsimp only at unbounded ⊢
      split at unbounded
      · rename_i zero
        exact ⟨.err .EPERM, if_pos zero⟩
      · cases unbounded

/-- One round at a bounded type. -/
theorem transitionRound_some {bounds : U32} (bounded : typeBound p newType = some bounds) :
    boundedTransitionLoop p oldType (n + 1) newType =
      if bounds = oldType then some (.ok ()) else boundedTransitionLoop p oldType n bounds := by
  unfold typeBound at bounded
  conv_lhs => unfold boundedTransitionLoop atValue
  cases slot : p.typeValToStruct[(newType - 1).toNat]? with
  | none =>
    rw [slot] at bounded
    cases bounded
  | some entry =>
    cases entry with
    | none =>
      rw [slot] at bounded
      cases bounded
    | some datum =>
      rw [slot] at bounded
      dsimp only at bounded ⊢
      split at bounded
      · cases bounded
      · rename_i nonzero
        cases bounded
        rw [if_neg nonzero]

/-- The loop ends with its chain, and succeeds where it meets the old type on the way. -/
theorem transitionLoop_ends (ends : EndsWithin (typeBound p) n newType) :
    ∃ result, boundedTransitionLoop p oldType (n + 1) newType = some result ∧
      (result = .ok () ↔ BoundedBy p newType oldType) := by
  induction n generalizing newType with
  | zero =>
    obtain ⟨e, round⟩ : ∃ e, boundedTransitionLoop p oldType 1 newType = some (.error e) :=
      transitionRound_none ends
    refine ⟨.error e, round, iff_of_false (fun ok => ?_) (not_ahead_of_none ends)⟩
    cases ok
  | succ n ih =>
    cases link : typeBound p newType with
    | none =>
      obtain ⟨e, round⟩ : ∃ e, boundedTransitionLoop p oldType (n + 2) newType = some (.error e) :=
        transitionRound_none link
      refine ⟨.error e, round, iff_of_false (fun ok => ?_) (not_ahead_of_none link)⟩
      cases ok
    | some bounds =>
      rw [transitionRound_some link]
      unfold BoundedBy
      rw [ahead_of_some link]
      by_cases met : bounds = oldType
      · rw [if_pos met]
        exact ⟨.ok (), rfl, iff_of_true rfl (.inl met)⟩
      · rw [if_neg met]
        obtain ⟨result, round, answer⟩ := ih (ends.tail link)
        exact ⟨result, round, answer.trans (or_iff_right met).symm⟩

/-- The audit record changes no success and makes none. -/
theorem audit_ok {oldContext newContext : Context} {result : Except Fault Unit} :
    boundedTransitionAudit p oldContext newContext result = .ok () ↔ result = .ok () := by
  cases result with
  | ok u => exact iff_of_true rfl rfl
  | error f =>
    cases f with
    | oops => exact Iff.rfl
    | err e =>
      refine iff_of_false (fun done => ?_) (fun done => ?_)
      · unfold boundedTransitionAudit at done
        simp only [exceptBind_ok] at done
        obtain ⟨_, -, _, -, failed⟩ := done
        cases failed
      · cases done

end Transition

/-- The walks end after fewer steps than `POLICYDB_BOUNDS_MAXDEPTH`, in the policy as it was read and
after its booleans have changed. -/
structure WalksEnd (p : Policydb) : Prop where
  computeAv : ∀ q : Policydb, q.typeValToStruct = p.typeValToStruct →
    ∀ (scontext tcontext : Context) (tclass : U16) (avd : AvDecision) (xperms : Option ExtendedPerms)
      (more : Nat),
      contextStructComputeAvDepth q (policydbBoundsMaxdepth + more) scontext tcontext tclass avd xperms =
        contextStructComputeAvDepth q policydbBoundsMaxdepth scontext tcontext tclass avd xperms
  transition : ∀ policy : SelinuxPolicy, policy.policydb.typeValToStruct = p.typeValToStruct →
    ∀ (oldSid newSid : U32) (oldContext newContext : Context),
      sidtabSearch policy.sidtab oldSid = .ok (some oldContext) →
      sidtabSearch policy.sidtab newSid = .ok (some newContext) →
      ∃ result, securityBoundedTransition policydbBoundsMaxdepth (some policy) oldSid newSid =
          some result ∧
        (result = .ok () ↔
          oldContext.type = newContext.type ∨ BoundedBy p newContext.type oldContext.type)

section Concrete

/-- The type `a` is bounded by `b`. -/
def boundedImage : PolicyImage :=
  { smallImage with
    types := symbols 2 [typeBytes 1 1 2 (cstr ['a']), typeBytes 2 1 0 (cstr ['b'])] }

end Concrete

end Ksrc.Guarantees.BoundsRecursion

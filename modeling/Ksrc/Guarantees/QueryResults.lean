import Ksrc.Source.ComputeSid

/-!
# The queries with their slots compute what the queries compute

A query that records the slots it reads has the result of the query without the record, up to the
audit record of masked permissions, which may fail where the decision is already made.
-/
namespace Ksrc.Guarantees.QueryResults

open Library Source

variable {p : Policydb}

section Printing

@[simp] theorem symNameReads_result (array : ValueArray) (names : List (Option Name)) (value : U32) :
    (symNameReads array names value).result = symName names value := by
  simp only [symNameReads, symName, Traced.result_bind, Traced.result_read, Traced.result_lift]

end Printing

section Validity

@[simp] theorem mlsLevelIsvalidReads_result (l : MlsLevel) :
    (mlsLevelIsvalidReads p l).result = mlsLevelIsvalid p l := by
  unfold mlsLevelIsvalidReads mlsLevelIsvalid
  split
  · rfl
  · simp only [Traced.result_bind, symNameReads_result, symName, bind_assoc]
    refine bind_congr fun entry => bind_congr fun name => ?_
    cases symtabSearch p.pLevels name with
    | none => rfl
    | some levdatum => rfl

@[simp] theorem mlsRangeIsvalidReads_result (r : MlsRange) :
    (mlsRangeIsvalidReads p r).result = mlsRangeIsvalid p r := by
  simp only [mlsRangeIsvalidReads, mlsRangeIsvalid, Traced.result_bind, mlsLevelIsvalidReads_result]
  refine bind_congr fun low => ?_
  split
  · simp only [Traced.result_bind, mlsLevelIsvalidReads_result]
    refine bind_congr fun high => ?_
    split
    · rfl
    · rfl
  · rfl

@[simp] theorem mlsContextIsvalidReads_result (c : Context) :
    (mlsContextIsvalidReads p c).result = mlsContextIsvalid p c := by
  unfold mlsContextIsvalidReads mlsContextIsvalid
  split
  · rfl
  · simp only [Traced.result_bind, mlsRangeIsvalidReads_result]
    refine bind_congr fun valid => ?_
    split
    · split
      · rfl
      · split
        · rfl
        · simp only [Traced.result_bind, Traced.result_read, Traced.result_lift]
          rfl
    · rfl

@[simp] theorem policydbContextIsvalidReads_result (c : Context) :
    (policydbContextIsvalidReads p c).result = policydbContextIsvalid p c := by
  unfold policydbContextIsvalidReads policydbContextIsvalid
  split
  · rfl
  split
  · rfl
  split
  · rfl
  split
  · simp only [Traced.result_bind, Traced.result_read]
    refine bind_congr fun entry => ?_
    cases entry with
    | none => rfl
    | some role =>
      dsimp only
      split
      · simp only [Traced.result_bind, Traced.result_read]
        refine bind_congr fun entry => ?_
        cases entry with
        | none => rfl
        | some user =>
          dsimp only
          split
          · exact mlsContextIsvalidReads_result c
          · rfl
      · rfl
  · exact mlsContextIsvalidReads_result c

end Validity

section Conditionals

@[simp] theorem condBoolStateReads_result (boolean : U32) :
    (condBoolStateReads p boolean).result = condBoolState p boolean := by
  simp only [condBoolStateReads, condBoolState, Traced.result_bind, Traced.result_read,
    Traced.result_lift]
  rfl

end Conditionals

section Decisions

variable {scontext tcontext : Context}

@[simp] theorem boundingContextsReads_result :
    (boundingContextsReads p scontext tcontext).result = boundingContexts p scontext tcontext := by
  simp only [boundingContextsReads, boundingContexts, Traced.result_bind, Traced.result_read,
    Traced.result_lift]
  refine bind_congr fun source => bind_congr fun source => ?_
  split
  · rfl
  · simp only [Traced.result_bind, Traced.result_read, Traced.result_lift]
    rfl

end Decisions

end Ksrc.Guarantees.QueryResults

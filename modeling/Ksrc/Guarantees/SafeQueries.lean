import Ksrc.Guarantees.NamedContexts

/-!
# Queries about filled contexts

The checks of a context, the decisions about two contexts and the record of an invalid one read no
empty slot where the contexts, the class and the bounds of the types are filled. A conditional
expression reads the booleans that it comes to before its stack is full or empty, and no others.
-/
namespace Ksrc.Guarantees.SafeQueries

open Library Source QueryResults NamedContexts

variable {p : Policydb} {scontext tcontext c : Context}

section Validity

theorem safe_levelIsvalid {l : MlsLevel} (named : Filled p .levelNames l.sens) :
    Safe p (mlsLevelIsvalidReads p l) := by
  unfold mlsLevelIsvalidReads
  split
  · exact Traced.reads_pure _
  · refine Traced.Reads.bind (safe_symName.mpr named) fun name _ => ?_
    cases symtabSearch p.pLevels name with
    | none => exact Traced.reads_pure _
    | some levdatum => exact Traced.reads_pure _

theorem safe_rangeIsvalid {r : MlsRange} (low : Filled p .levelNames r.low.sens)
    (high : Filled p .levelNames r.high.sens) : Safe p (mlsRangeIsvalidReads p r) := by
  unfold mlsRangeIsvalidReads
  refine Traced.Reads.bind (safe_levelIsvalid low) fun _ _ => ?_
  split
  · refine Traced.Reads.bind (safe_levelIsvalid high) fun _ _ => ?_
    split
    · exact Traced.reads_pure _
    · exact Traced.reads_pure _
  · exact Traced.reads_pure _

theorem safe_mlsIsvalid (filled : ContextFilled p c) : Safe p (mlsContextIsvalidReads p c) := by
  unfold mlsContextIsvalidReads
  split
  · exact Traced.reads_pure _
  · rename_i enabled
    obtain ⟨low, high⟩ := filled.levels (by simpa using enabled)
    refine Traced.Reads.bind (safe_rangeIsvalid low.1 high.1) fun _ _ => ?_
    split
    · split
      · exact Traced.reads_pure _
      split
      · exact Traced.reads_pure _
      · refine Traced.Reads.bind ((Traced.reads_read _ _).mpr filled.user) fun _ _ => ?_
        exact Traced.Reads.bind (Traced.reads_lift _) fun _ _ => Traced.reads_pure _
    · exact Traced.reads_pure _

/-- A context that is filled is checked without an empty slot. -/
theorem safe_isvalid (filled : ContextFilled p c) : Safe p (policydbContextIsvalidReads p c) := by
  unfold policydbContextIsvalidReads
  split
  · exact Traced.reads_pure _
  split
  · exact Traced.reads_pure _
  split
  · exact Traced.reads_pure _
  split
  · refine Traced.Reads.bind ((Traced.reads_read _ _).mpr filled.role) fun entry _ => ?_
    cases entry with
    | none => exact Traced.reads_pure _
    | some role =>
      dsimp only
      split
      · refine Traced.Reads.bind ((Traced.reads_read _ _).mpr filled.user) fun entry _ => ?_
        cases entry with
        | none => exact Traced.reads_pure _
        | some user =>
          dsimp only
          split
          · exact safe_mlsIsvalid filled
          · exact Traced.reads_pure _
      · exact Traced.reads_pure _
  · exact safe_mlsIsvalid filled

end Validity

section Decisions

theorem safe_roles {op val1 val2 : U32} (one : Filled p .roles val1) (other : Filled p .roles val2) :
    Safe p (cexprRolesReads p op val1 val2) := by
  unfold cexprRolesReads
  refine Traced.Reads.bind ((Traced.reads_read _ _).mpr one) fun _ _ => ?_
  refine Traced.Reads.bind ((Traced.reads_read _ _).mpr other) fun _ _ => ?_
  split
  · exact Traced.reads_lift _
  split
  · exact Traced.reads_lift _
  split
  · refine Traced.Reads.bind (Traced.reads_lift _) fun _ _ => ?_
    split
    · exact Traced.reads_pure _
    · exact Traced.Reads.bind (Traced.reads_lift _) fun _ _ => Traced.reads_pure _
  · exact Traced.reads_lift _

theorem safe_constraintExpr (s : ContextFilled p scontext) (t : ContextFilled p tcontext)
    (expr : List ConstraintExpr) (stack : List Bool) :
    Safe p (constraintExprEvalReads p scontext tcontext expr stack) := by
  induction expr generalizing stack with
  | nil =>
    cases stack with
    | nil => exact Traced.reads_lift _
    | cons _ more =>
      cases more with
      | nil => exact Traced.reads_pure _
      | cons _ _ => exact Traced.reads_lift _
  | cons e rest ih =>
    unfold constraintExprEvalReads
    split
    · cases stack with
      | nil => exact Traced.reads_lift _
      | cons a below => exact ih _
    split
    · cases stack with
      | nil => exact Traced.reads_lift _
      | cons b more =>
        cases more with
        | nil => exact Traced.reads_lift _
        | cons a below => exact ih _
    split
    · cases stack with
      | nil => exact Traced.reads_lift _
      | cons b more =>
        cases more with
        | nil => exact Traced.reads_lift _
        | cons a below => exact ih _
    split
    · split
      · exact Traced.reads_pure _
      · refine Traced.Reads.bind ?_ fun _ _ => ih _
        unfold cexprEvalAttrReads
        split
        · exact safe_roles s.role t.role
        · exact Traced.reads_lift _
    split
    · split
      · exact Traced.reads_pure _
      · exact Traced.Reads.bind (Traced.reads_lift _) fun _ _ => ih _
    · exact Traced.reads_lift _

theorem safe_constraints (s : ContextFilled p scontext) (t : ContextFilled p tcontext)
    (constraints : List ConstraintNode) (allowed : U32) :
    Safe p (computeAvConstraintsReads p scontext tcontext constraints allowed) := by
  induction constraints generalizing allowed with
  | nil => exact Traced.reads_pure _
  | cons constraint rest ih =>
    unfold computeAvConstraintsReads
    split
    · exact Traced.Reads.bind (safe_constraintExpr s t _ _) fun _ _ => ih _
    · exact ih _

/-- A class with its name and its data. -/
def ClassFilled (p : Policydb) (tclass : U16) : Prop :=
  Filled p .classNames (tclass.zeroExtend 32) ∧ Filled p .classes (tclass.zeroExtend 32)

/-- The bounds of the types of the policy are filled. -/
def BoundsFilled (p : Policydb) : Prop :=
  ∀ value t, atValue p.typeValToStruct value = .ok (some t) → t.bounds ≠ 0 →
    Filled p .typeNames t.bounds ∧ Filled p .types t.bounds

theorem safe_unbounded {tclass : U16} {acc : AvDecision × Option ExtendedPerms}
    (cls : ClassFilled p tclass) (s : ContextFilled p scontext) (t : ContextFilled p tcontext) :
    Safe p (computeAvUnboundedReads p scontext tcontext tclass acc) := by
  unfold computeAvUnboundedReads
  refine Traced.Reads.bind ((Traced.reads_read _ _).mpr cls.2) fun _ _ => ?_
  refine Traced.Reads.bind (Traced.reads_lift _) fun _ _ => ?_
  refine Traced.Reads.bind (Traced.reads_lift _) fun _ _ => ?_
  refine Traced.Reads.bind (Traced.reads_lift _) fun _ _ => ?_
  exact Traced.Reads.bind (safe_constraints s t _ _) fun _ _ => Traced.reads_pure _

theorem safe_bounding (s : ContextFilled p scontext) (t : ContextFilled p tcontext) :
    Safe p (boundingContextsReads p scontext tcontext) := by
  unfold boundingContextsReads
  refine Traced.Reads.bind ((Traced.reads_read _ _).mpr s.type) fun _ _ => ?_
  refine Traced.Reads.bind (Traced.reads_lift _) fun source _ => ?_
  split
  · exact Traced.reads_pure _
  · refine Traced.Reads.bind ((Traced.reads_read _ _).mpr t.type) fun _ _ => ?_
    exact Traced.Reads.bind (Traced.reads_lift _) fun _ _ => Traced.reads_pure _

theorem ContextFilled.withType {type : U32} (filled : ContextFilled p c)
    (typeName : Filled p .typeNames type) (there : Filled p .types type) :
    ContextFilled p { c with type } := by
  constructor
  · exact filled.userName
  · exact filled.roleName
  · exact typeName
  · exact filled.user
  · exact filled.role
  · exact there
  · exact filled.levels

/-- The contexts of the bounds are filled, too. -/
theorem bounding_filled (bounds : BoundsFilled p) (s : ContextFilled p scontext)
    (t : ContextFilled p tcontext) {lo : Context × Context}
    (bounded : boundingContexts p scontext tcontext = .ok (some lo)) :
    ContextFilled p lo.1 ∧ ContextFilled p lo.2 := by
  simp only [boundingContexts, exceptBind_ok] at bounded
  obtain ⟨entry, sourceRead, source, pointer, bounded⟩ := bounded
  cases entry with
  | none => cases pointer
  | some _ =>
    cases pointer
    split at bounded
    · cases bounded
    · rename_i nonzero
      simp only [exceptBind_ok] at bounded
      obtain ⟨entry, targetRead, target, pointer, made⟩ := bounded
      cases entry with
      | none => cases pointer
      | some _ =>
        cases pointer
        cases made
        obtain ⟨sourceName, sourceType⟩ := bounds _ _ sourceRead nonzero
        refine ⟨ContextFilled.withType s sourceName sourceType, ?_⟩
        dsimp only
        split
        · rename_i nonzero
          obtain ⟨targetName, targetType⟩ := bounds _ _ targetRead nonzero
          exact ContextFilled.withType t targetName targetType
        · exact t

theorem safe_dump {tclass : U16} {permissions : U32} (cls : ClassFilled p tclass)
    (s : ContextFilled p scontext) (t : ContextFilled p tcontext) :
    Safe p (securityDumpMaskedAvReads p scontext tcontext tclass permissions) := by
  unfold securityDumpMaskedAvReads
  split
  · exact Traced.reads_pure _
  · refine Traced.Reads.bind ((Traced.reads_read _ _).mpr cls.1) fun _ _ => ?_
    refine Traced.Reads.bind ((Traced.reads_read _ _).mpr cls.2) fun _ _ => ?_
    refine Traced.Reads.bind (Traced.reads_lift _) fun _ _ => ?_
    refine Traced.Reads.bind (Traced.reads_lift _) fun _ _ => ?_
    refine Traced.Reads.bind (safe_print s) fun _ _ => ?_
    exact Traced.Reads.bind (safe_print t) fun _ _ => Traced.reads_pure _

/-- A decision about filled contexts, by induction on the depth of the bounds. -/
theorem safe_computeAv {depth : Nat} {tclass : U16} {avd : AvDecision}
    {xperms : Option ExtendedPerms} (bounds : BoundsFilled p) (cls : ClassFilled p tclass)
    (s : ContextFilled p scontext) (t : ContextFilled p tcontext) :
    Safe p (contextStructComputeAvDepthReads p depth scontext tcontext tclass avd xperms) := by
  induction depth generalizing scontext tcontext avd xperms with
  | zero => exact Traced.reads_lift _
  | succ depth ih =>
    unfold contextStructComputeAvDepthReads
    dsimp only
    split
    · exact Traced.reads_pure _
    · refine Traced.Reads.bind (safe_unbounded cls s t) fun _ _ => ?_
      refine Traced.Reads.bind (safe_bounding s t) fun lo found => ?_
      cases lo with
      | none => exact Traced.reads_pure _
      | some lo =>
        rw [boundingContextsReads_result] at found
        obtain ⟨lower, upper⟩ := bounding_filled bounds s t found
        refine Traced.Reads.bind (ih lower upper) fun _ _ => ?_
        exact Traced.Reads.bind (safe_dump cls s t) fun _ _ => Traced.reads_pure _

end Decisions

section Conditionals

/-- The booleans that the evaluation of an expression comes to, with so much on the stack. -/
def reachedBooleans : List CondExprNode → Nat → List U32
  | [], _ => []
  | node :: rest, depth =>
    if node.exprType = condBool then
      if depth = condExprMaxdepth then [] else node.boolean :: reachedBooleans rest (depth + 1)
    else if node.exprType = condNot then if depth = 0 then [] else reachedBooleans rest depth
    else if depth < 2 ∨ condBinary node.exprType 0 0 = none then []
    else reachedBooleans rest (depth - 1)

/-- The name in a slot of the array of booleans is that of a boolean. -/
def BoolsFound (p : Policydb) : Prop :=
  ∀ (i : Nat) (name : Name), p.boolValToStruct[i]? = some (some name) →
    (symtabSearch p.pBools name).isSome = true

theorem condBinary_none (exprType a b : U32) :
    condBinary exprType a b = none ↔ condBinary exprType 0 0 = none := by
  unfold condBinary
  split
  · exact iff_of_false (Option.some_ne_none _) (Option.some_ne_none _)
  split
  · exact iff_of_false (Option.some_ne_none _) (Option.some_ne_none _)
  split
  · exact iff_of_false (Option.some_ne_none _) (Option.some_ne_none _)
  split
  · exact iff_of_false (Option.some_ne_none _) (Option.some_ne_none _)
  split
  · exact iff_of_false (Option.some_ne_none _) (Option.some_ne_none _)
  · exact Iff.rfl

theorem boolState_answers (found : BoolsFound p) (boolean : U32) :
    Answers p (condBoolStateReads p boolean) := by
  intro safe
  have filled := (Traced.reads_read _ _).mp safe.left
  obtain ⟨name, slot, read⟩ := atValue_of_held (show (p.boolValToStruct[_]?.join).isSome = true from filled.2)
  obtain ⟨datum, search⟩ := Option.isSome_iff_exists.mp (found _ _ slot)
  refine ⟨datum.state, ?_⟩
  rw [condBoolStateReads_result, condBoolState, read]
  show ((derefPtr (symtabSearch p.pBools name)) >>= fun d => pure d.state) = _
  rw [search]
  rfl

/-- An expression is safe where the booleans it comes to are. -/
theorem safe_condNodes (found : BoolsFound p) (nodes : List CondExprNode) (stack : List U32) :
    Safe p (condEvaluateNodesReads p nodes stack) ↔
      ∀ boolean ∈ reachedBooleans nodes stack.length, Filled p .bools boolean := by
  induction nodes generalizing stack with
  | nil => exact iff_of_true (Traced.reads_pure _) fun _ member => absurd member List.not_mem_nil
  | cons node rest ih =>
    unfold condEvaluateNodesReads reachedBooleans
    by_cases isBool : node.exprType = condBool
    · rw [if_pos isBool, if_pos isBool]
      by_cases full : stack.length = condExprMaxdepth
      · rw [if_pos full, if_pos full]
        exact iff_of_true (Traced.reads_pure _) fun _ member => absurd member List.not_mem_nil
      · rw [if_neg full, if_neg full, List.forall_mem_cons]
        constructor
        · intro safe
          obtain ⟨state, _, later⟩ := safe_after (boolState_answers found _) safe
          have here := (Traced.reads_read _ _).mp (Traced.Reads.left safe.left)
          exact ⟨here, (ih (state :: stack)).mp later⟩
        · rintro ⟨here, later⟩
          refine Traced.Reads.bind ?_ fun state _ => (ih (state :: stack)).mpr later
          refine Traced.Reads.bind ((Traced.reads_read _ _).mpr here) fun _ _ => ?_
          refine Traced.Reads.bind (Traced.reads_lift _) fun _ _ => ?_
          exact Traced.Reads.bind (Traced.reads_lift _) fun _ _ => Traced.reads_pure _
    rw [if_neg isBool, if_neg isBool]
    by_cases isNot : node.exprType = condNot
    · rw [if_pos isNot, if_pos isNot]
      cases stack with
      | nil => exact iff_of_true (Traced.reads_pure _) fun _ member => absurd member List.not_mem_nil
      | cons a below => exact ih ((if a = 0 then 1 else 0) :: below)
    rw [if_neg isNot, if_neg isNot]
    cases stack with
    | nil => exact iff_of_true (Traced.reads_pure _) fun _ member => absurd member List.not_mem_nil
    | cons b more =>
      cases more with
      | nil => exact iff_of_true (Traced.reads_pure _) fun _ member => absurd member List.not_mem_nil
      | cons a below =>
        dsimp only [List.length_cons]
        cases computed : condBinary node.exprType a b with
        | none =>
          rw [if_pos (.inr ((condBinary_none _ a b).mp computed))]
          exact iff_of_true (Traced.reads_pure _) fun _ member => absurd member List.not_mem_nil
        | some v =>
          have goesOn : ¬ (below.length + 1 + 1 < 2 ∨ condBinary node.exprType 0 0 = none) := by
            rintro (short | unknown)
            · omega
            · rw [(condBinary_none _ a b).mpr unknown] at computed
              cases computed
          rw [if_neg goesOn]
          exact ih (v :: below)

theorem safe_condExpr (found : BoolsFound p) (expr : List CondExprNode) :
    Safe p (condEvaluateExprReads p expr) ↔
      ∀ boolean ∈ reachedBooleans expr 0, Filled p .bools boolean := by
  unfold condEvaluateExprReads
  cases expr with
  | nil => exact iff_of_true (Traced.reads_pure _) fun _ member => absurd member List.not_mem_nil
  | cons node rest => exact safe_condNodes found (node :: rest) []

end Conditionals

end Ksrc.Guarantees.SafeQueries

import Ksrc.Library.UpToFirst
import Ksrc.Guarantees.ConstraintStops
import Ksrc.Guarantees.LoadedSlots
import Ksrc.Guarantees.PolicyImages

/-!
# Constraint expressions that were read

Source: `security/selinux/ss/policydb.c` (`read_cons_helper`), `security/selinux/ss/services.c`
(`constraint_expr_eval`).

The reader follows the height of the stack that the evaluator will have. What it lets through is the
row of one tree; it does not look at the attribute and the operator of a leaf.
-/
namespace Ksrc.Guarantees.ConstraintExprs

open Library Source ConstraintStops LoadedSlots
open PoliciesInForce PolicyImages

variable {p : Policydb} {scontext tcontext : Context} {xcontext : Option Context}
  {e : ConstraintExpr} {es : List ConstraintExpr} {stack stack' : List Bool}

/-- What an entry takes from the stack. -/
def cexprKind (e : ConstraintExpr) : Option OperandKind :=
  if e.exprType = cexprNot then some .unary
  else if e.exprType = cexprAnd ∨ e.exprType = cexprOr then some .binary
  else if e.exprType = cexprAttr ∨ e.exprType = cexprNames then some .operand
  else none

/-- What the entries mean for two contexts, or three. -/
def cexprMeaning (p : Policydb) (scontext tcontext : Context) (xcontext : Option Context) :
    OperandTree.Meaning ConstraintExpr Bool where
  value e :=
    if e.exprType = cexprAttr then attrValue p scontext tcontext e
    else namesValue scontext tcontext xcontext e
  unary _ v := !v
  binary e v w := if e.exprType = cexprAnd then v && w else v || w

/-- A leaf whose attribute and operator the evaluator handles. -/
def CexprHandled (e : ConstraintExpr) : Prop :=
  (e.exprType = cexprAttr → AttrHandled e) ∧ (e.exprType = cexprNames → NamesHandled e)

instance (e : ConstraintExpr) : Decidable (CexprHandled e) := inferInstanceAs (Decidable (_ ∧ _))

/-- The third context is there for the leaves about it. -/
def ThirdGiven (xcontext : Option Context) (e : ConstraintExpr) : Prop :=
  e.exprType = cexprNames → e.attr &&& cexprXtarget ≠ 0 → xcontext.isSome = true

section Kinds

theorem kind_unary (is : cexprKind e = some .unary) : e.exprType = cexprNot := by
  unfold cexprKind at is
  grind

theorem kind_binary (is : cexprKind e = some .binary) :
    e.exprType = cexprAnd ∨ e.exprType = cexprOr := by
  unfold cexprKind at is
  grind

theorem kind_operand (is : cexprKind e = some .operand) :
    e.exprType = cexprAttr ∨ e.exprType = cexprNames := by
  unfold cexprKind at is
  grind

theorem kind_of_leaf (leaf : e.exprType = cexprAttr ∨ e.exprType = cexprNames) :
    cexprKind e = some .operand := by
  unfold cexprKind
  rcases leaf with is | is
  · rw [is]
    decide
  · rw [is]
    decide

end Kinds

section Reading

/-- The depth of the reader is one less than the height. -/
theorem consDepth_step {allowxtarget : Bool} {depth depth' : Int} {heights : List Unit}
    (checked : consDepth allowxtarget e.exprType e.attr depth = .ok depth')
    (height : (heights.length : Int) = depth + 1) (space : heights.length ≤ cexprMaxdepth) :
    ∃ after, OperandTree.step cexprMaxdepth cexprKind OperandTree.heights e heights = some after ∧
      (after.length : Int) = depth' + 1 ∧
      (e.exprType = cexprNames → allowxtarget = false → e.attr &&& cexprXtarget = 0) := by
  have push (leaf : e.exprType = cexprAttr ∨ e.exprType = cexprNames)
      (room : ¬ depth = cexprMaxdepth - 1) :
      OperandTree.step cexprMaxdepth cexprKind OperandTree.heights e heights = some (() :: heights) := by
    rw [OperandTree.step_operand (kind_of_leaf leaf)]
    exact if_pos (by omega)
  unfold consDepth at checked
  split at checked
  · rename_i is
    split at checked
    · cases checked
    · cases checked
      match heights with
      | [] =>
        simp only [List.length_nil] at height
        omega
      | () :: below =>
        have kind : cexprKind e = some .unary := by
          unfold cexprKind
          rw [if_pos is]
        refine ⟨_, OperandTree.step_unary kind, height, fun names => ?_⟩
        rw [is] at names
        cases names
  split at checked
  · rename_i not is
    split at checked
    · cases checked
    · cases checked
      match heights with
      | [] =>
        simp only [List.length_nil] at height
        omega
      | [_] =>
        simp only [List.length_singleton] at height
        omega
      | () :: () :: below =>
        have kind : cexprKind e = some .binary := by
          unfold cexprKind
          rw [if_neg not, if_pos is]
        refine ⟨_, OperandTree.step_binary kind, ?_, fun names => ?_⟩
        · simp only [List.length_cons] at height ⊢
          omega
        · rcases is with is | is
          · rw [is] at names
            cases names
          · rw [is] at names
            cases names
  split at checked
  · rename_i is
    split at checked
    · cases checked
    · rename_i room
      cases checked
      refine ⟨_, push (.inl is) room, ?_, fun names => ?_⟩
      · rw [List.length_cons]
        omega
      · rw [is] at names
        cases names
  split at checked
  · rename_i is
    split at checked
    · cases checked
    split at checked
    · cases checked
    · rename_i third room
      cases checked
      refine ⟨_, push (.inr is) room, ?_, fun _ barred => ?_⟩
      · rw [List.length_cons]
        omega
      · by_contra bit
        exact third ⟨by simp [barred], bit⟩
  · cases checked

theorem readConsExpr_checked {vers : U32} {allowxtarget : Bool} {depth depth' : Int}
    {bytes rest : List U8}
    (read : readConsExpr vers allowxtarget depth bytes = .ok ((depth', e), rest)) :
    consDepth allowxtarget e.exprType e.attr depth = .ok depth' := by
  simp only [readConsExpr, ByteReader.bind_ok, ByteReader.lift_ok] at read
  obtain ⟨exprType, _, -, at', _, -, op, _, -, next, _, ⟨checked, -⟩, tail⟩ := read
  split at tail
  · simp only [ByteReader.bind_ok] at tail
    obtain ⟨names, _, -, tail⟩ := tail
    split at tail
    · simp only [ByteReader.bind_ok, ByteReader.pure_ok] at tail
      obtain ⟨typeNames, _, -, same, -⟩ := tail
      cases same
      exact checked
    · obtain ⟨same, -⟩ := ByteReader.pure_ok.mp tail
      cases same
      exact checked
  · obtain ⟨same, -⟩ := ByteReader.pure_ok.mp tail
    cases same
    exact checked

/-- The entries of a constraint move the height as they move the depth. -/
theorem readConsExprs_run {vers : U32} {allowxtarget : Bool} {nexpr : Nat} {depth final : Int}
    {bytes rest : List U8} {heights : List Unit}
    (read : readConsExprs vers allowxtarget nexpr depth bytes = .ok ((final, es), rest))
    (height : (heights.length : Int) = depth + 1) (space : heights.length ≤ cexprMaxdepth) :
    ∃ after, OperandTree.run cexprMaxdepth cexprKind OperandTree.heights es heights = some after ∧
      (after.length : Int) = final + 1 ∧
      ∀ e ∈ es, e.exprType = cexprNames → allowxtarget = false → e.attr &&& cexprXtarget = 0 := by
  induction nexpr generalizing depth es bytes heights with
  | zero =>
    obtain ⟨same, -⟩ := ByteReader.pure_ok.mp read
    cases same
    exact ⟨heights, rfl, height, by simp⟩
  | succ nexpr ih =>
    simp only [readConsExprs, ByteReader.bind_ok] at read
    obtain ⟨⟨depth', e⟩, _, one, ⟨last, more⟩, _, others, whole⟩ := read
    obtain ⟨same, rfl⟩ := ByteReader.pure_ok.mp whole
    simp only [Prod.mk.injEq] at same
    obtain ⟨rfl, rfl⟩ := same
    dsimp only at others
    obtain ⟨next, stepped, height', third⟩ :=
      consDepth_step (readConsExpr_checked one) height space
    have bounded : next.length ≤ cexprMaxdepth := by
      have ran : OperandTree.run cexprMaxdepth cexprKind OperandTree.heights [e] heights = some next := by
        rw [OperandTree.run_cons, stepped]
        rfl
      exact OperandTree.run_length ran space
    obtain ⟨after, run, left, thirds⟩ := ih others height' bounded
    refine ⟨after, ?_, left, ?_⟩
    · rw [OperandTree.run_cons, stepped]
      exact run
    · intro other member
      rcases List.mem_cons.mp member with rfl | member
      · exact third
      · exact thirds other member

/-- The row of a tree for which there is room, with no leaf about a third context where none will be
given. -/
def RowOfTree (allowxtarget : Bool) (expr : List ConstraintExpr) : Prop :=
  (∃ tree : OperandTree ConstraintExpr, tree.Fits cexprKind ∧ tree.tokens = expr ∧
    tree.need ≤ cexprMaxdepth) ∧
    ∀ e ∈ expr, e.exprType = cexprNames → allowxtarget = false → e.attr &&& cexprXtarget = 0

theorem readConsNode_tree {vers : U32} {allowxtarget : Bool} {bytes rest : List U8}
    {constraint : ConstraintNode}
    (read : readConsNode vers allowxtarget bytes = .ok (constraint, rest)) :
    RowOfTree allowxtarget constraint.expr := by
  simp only [readConsNode, ByteReader.bind_ok, ByteReader.pure_ok, ByteReader.require_ok] at read
  obtain ⟨permissions, _, -, nexpr, _, -, ⟨depth, expr⟩, _, exprs, _, _, ⟨zero, -⟩, rfl, -⟩ := read
  have height : (([] : List Unit).length : Int) = -1 + 1 := rfl
  obtain ⟨heights, run, left, thirds⟩ := readConsExprs_run exprs height (Nat.zero_le _)
  have single : heights = [()] := by
    have one : heights.length = 1 := by
      dsimp only at zero
      omega
    obtain ⟨height, rfl⟩ := List.length_eq_one_iff.mp one
    rfl
  rw [single] at run
  obtain ⟨tree, fits, row, room, -⟩ := OperandTree.run_single_iff.mp run
  exact ⟨⟨tree, fits, row, room⟩, thirds⟩

theorem readConsHelper_tree {vers ncons : U32} {allowxtarget : Bool} {bytes rest : List U8}
    {constraints : List ConstraintNode}
    (read : readConsHelper vers ncons allowxtarget bytes = .ok (constraints, rest)) :
    ∀ constraint ∈ constraints, RowOfTree allowxtarget constraint.expr :=
  ByteReader.several_all (fun _ _ _ once => readConsNode_tree once) read

end Reading

section Evaluation

/-- The roles of two contexts are there. -/
def RolesThere (p : Policydb) (scontext tcontext : Context) : Prop :=
  (∃ role, atValue p.roleValToStruct scontext.role = .ok (some role)) ∧
    ∃ role, atValue p.roleValToStruct tcontext.role = .ok (some role)

/-- An entry with something to take from the stack and room to leave it. -/
theorem step_operator (stepped : OperandTree.step cexprMaxdepth cexprKind
      (cexprMeaning p scontext tcontext xcontext) e stack = some stack')
    (operator : cexprKind e ≠ some .operand) :
    constraintExprStep p scontext tcontext xcontext e stack = .ok stack' := by
  obtain ⟨is, -, -⟩ | ⟨v, below, is, rfl, rfl⟩ | ⟨v, w, below, is, rfl, rfl⟩ :=
    OperandTree.step_cases stepped
  · exact absurd is operator
  · unfold constraintExprStep
    rw [if_pos (kind_unary is)]
    rfl
  · unfold constraintExprStep cexprMeaning
    rcases kind_binary is with type | type
    · simp [type, cexprAnd, cexprNot]
    · simp [type, cexprOr, cexprAnd, cexprNot]

/-- A leaf with room for its value. -/
theorem step_leaf (leaf : cexprKind e = some .operand) (room : stack.length < cexprMaxdepth)
    (roles : RolesThere p scontext tcontext) (third : ThirdGiven xcontext e) :
    constraintExprStep p scontext tcontext xcontext e stack =
      if CexprHandled e then
        .ok ((cexprMeaning p scontext tcontext xcontext).value e :: stack)
      else .error .bug := by
  obtain ⟨⟨r1, one⟩, r2, other⟩ := roles
  have space : ¬ stack.length = cexprMaxdepth := by omega
  unfold constraintExprStep cexprMeaning CexprHandled
  rcases kind_operand leaf with type | type
  · rw [cexprEvalAttrStep_eq one other, if_neg space]
    by_cases handled : AttrHandled e
    · simp [type, handled, cexprNot, cexprAnd, cexprOr, cexprAttr, cexprNames, bind, Except.bind, pure,
        Except.pure]
    · simp [type, handled, cexprNot, cexprAnd, cexprOr, cexprAttr, bind, Except.bind]
  · rw [cexprEvalNames_eq (third type)]
    by_cases handled : NamesHandled e
    · simp [type, space, handled, cexprNot, cexprAnd, cexprOr, cexprAttr, cexprNames, bind, Except.bind,
        pure, Except.pure, stopAs]
    · simp [type, space, handled, cexprNot, cexprAnd, cexprOr, cexprAttr, cexprNames, bind, Except.bind,
        stopAs]

/-- An entry does what its token does, where it is handled. -/
theorem step_token (stepped : OperandTree.step cexprMaxdepth cexprKind
      (cexprMeaning p scontext tcontext xcontext) e stack = some stack')
    (handled : CexprHandled e) (roles : RolesThere p scontext tcontext)
    (third : ThirdGiven xcontext e) :
    constraintExprStep p scontext tcontext xcontext e stack = .ok stack' := by
  by_cases leaf : cexprKind e = some .operand
  · rw [OperandTree.step_operand leaf] at stepped
    split at stepped
    · rename_i room
      cases stepped
      rw [step_leaf leaf room roles third, if_pos handled]
    · cases stepped
  · exact step_operator stepped leaf

/-- The entries do what the tokens do. -/
theorem steps_tokens (ran : OperandTree.run cexprMaxdepth cexprKind
      (cexprMeaning p scontext tcontext xcontext) es stack = some stack')
    (handled : ∀ e ∈ es, CexprHandled e) (roles : RolesThere p scontext tcontext)
    (third : ∀ e ∈ es, ThirdGiven xcontext e) :
    constraintExprSteps p scontext tcontext xcontext es stack = .ok stack' := by
  induction es generalizing stack with
  | nil =>
    cases ran
    rfl
  | cons e es ih =>
    obtain ⟨next, stepped, rest⟩ := Option.bind_eq_some_iff.mp ran
    have first := step_token stepped (handled e (by simp)) roles (third e (by simp))
    unfold constraintExprSteps
    rw [first]
    exact ih rest (fun e member => handled e (by simp [member]))
      fun e member => third e (by simp [member])

theorem thirdGiven {allowxtarget : Bool} (row : RowOfTree allowxtarget es)
    (third : allowxtarget = true → xcontext.isSome = true) : ∀ e ∈ es, ThirdGiven xcontext e := by
  intro e inside names bit
  cases allowed : allowxtarget with
  | true => exact third allowed
  | false => exact absurd (row.2 e inside names allowed) bit

theorem steps_append (done todo : List ConstraintExpr) :
    constraintExprSteps p scontext tcontext xcontext (done ++ todo) stack =
      constraintExprSteps p scontext tcontext xcontext done stack >>=
        constraintExprSteps p scontext tcontext xcontext todo := by
  induction done generalizing stack with
  | nil => rfl
  | cons e done ih =>
    simp only [List.cons_append, constraintExprSteps, bind_assoc]
    exact congrArg _ (funext fun next => ih)

/-- An expression that was read: at every entry the stack has no more than its room, and at the end it
has one value, that of the only tree with this row. -/
theorem evaluates_tree {vers ncons : U32} {allowxtarget : Bool} {bytes rest : List U8}
    {constraints : List ConstraintNode} {constraint : ConstraintNode}
    (read : readConsHelper vers ncons allowxtarget bytes = .ok (constraints, rest))
    (member : constraint ∈ constraints) (handled : ∀ e ∈ constraint.expr, CexprHandled e)
    (inForce : InForce p) (source : policydbContextIsvalid p scontext = .ok true)
    (target : policydbContextIsvalid p tcontext = .ok true)
    (third : allowxtarget = true → xcontext.isSome = true) :
    ∃ tree : OperandTree ConstraintExpr, tree.Fits cexprKind ∧ tree.tokens = constraint.expr ∧
      (∀ other : OperandTree ConstraintExpr, other.Fits cexprKind →
        other.tokens = constraint.expr → other = tree) ∧
      (∀ done todo, constraint.expr = done ++ todo → ∃ stack,
        constraintExprSteps p scontext tcontext xcontext done [] = .ok stack ∧
          stack.length ≤ cexprMaxdepth) ∧
      constraintExprSteps p scontext tcontext xcontext constraint.expr [] =
        .ok [tree.eval (cexprMeaning p scontext tcontext xcontext)] ∧
      constraintExprEval p scontext tcontext xcontext constraint.expr [] =
        .ok (tree.eval (cexprMeaning p scontext tcontext xcontext)) := by
  have row := readConsHelper_tree read constraint member
  obtain ⟨tree, fits, whole, room⟩ := row.1
  have roles : RolesThere p scontext tcontext :=
    ⟨(inForce_tables inForce).roleSlot source, (inForce_tables inForce).roleSlot target⟩
  have given : ∀ e ∈ constraint.expr, ThirdGiven xcontext e := thirdGiven row third
  have ran : OperandTree.run cexprMaxdepth cexprKind (cexprMeaning p scontext tcontext xcontext)
      constraint.expr [] = some [tree.eval (cexprMeaning p scontext tcontext xcontext)] :=
    OperandTree.run_single_iff.mpr ⟨tree, fits, whole, room, rfl⟩
  have all := steps_tokens ran handled roles given
  refine ⟨tree, fits, whole, ?_, ?_, all, ?_⟩
  · intro other otherFits same
    exact OperandTree.tokens_unique otherFits fits (same.trans whole.symm)
  · intro done todo split
    rw [split, OperandTree.run_append] at ran
    obtain ⟨mid, part, -⟩ := Option.bind_eq_some_iff.mp ran
    have inside : ∀ e ∈ done, e ∈ constraint.expr := by
      intro e here
      rw [split]
      exact List.mem_append_left _ here
    exact ⟨mid, steps_tokens part (fun e here => handled e (inside e here)) roles
      (fun e here => given e (inside e here)), OperandTree.run_length part (Nat.zero_le _)⟩
  · rw [constraintExprEval_seen, all]
    rfl

/-- One constraint of leaves without names and operators. -/
def constraintBytes (entries : List (U32 × U32 × U32)) : List U8 :=
  cpuToLe32 1 ++ cpuToLe32 (BitVec.ofNat 32 entries.length) ++
    entries.flatMap fun (exprType, at', op) => cpuToLe32 exprType ++ cpuToLe32 at' ++ cpuToLe32 op

def plainExpr (exprType at' op : U32) : ConstraintExpr :=
  { exprType, attr := at', op, names := ebitmapInit, typeNames := none }

/-- The same user or another type. -/
def sameUser : List (U32 × U32 × U32) :=
  [(cexprAttr, cexprUser, cexprEq), (cexprAttr, cexprType, cexprNeq), (cexprOr, 0, 0)]

def sameUserTree : OperandTree ConstraintExpr :=
  .binary (plainExpr cexprOr 0 0) (.operand (plainExpr cexprAttr cexprUser cexprEq))
    (.operand (plainExpr cexprAttr cexprType cexprNeq))

/-- A context of the first user and the first type. -/
def firstContext : Context :=
  { contextInit with user := 1, role := objectRVal, type := 1 }

theorem evaluates_tree_sameUser : ∃ p, InForce p ∧
    constraintExprEval p firstContext firstContext none sameUserTree.tokens [] = .ok true := by
  have accepted : smallImage.accepts
      (fun p => (policydbContextIsvalid p firstContext).toOption == some true) = true := by
    decide +kernel
  obtain ⟨p, rest, read, test⟩ := PolicyImage.accepts_iff.mp accepted
  have valid : policydbContextIsvalid p firstContext = .ok true := by
    cases checked : policydbContextIsvalid p firstContext with
    | error f => simp [checked, Except.toOption] at test
    | ok b => simpa [checked, Except.toOption] using test
  have constraints : readConsHelper 33 1 false (constraintBytes sameUser) =
      .ok ([{ permissions := 1, expr := sameUserTree.tokens }], []) := by
    decide
  have third : false = true → (none : Option Context).isSome = true := by simp
  obtain ⟨tree, -, -, unique, -, -, value⟩ := evaluates_tree constraints
    (List.mem_singleton.mpr rfl) (by decide) (.loaded read) valid valid third
  have same := unique sameUserTree (by decide) rfl
  refine ⟨p, .loaded read, ?_⟩
  rw [← same] at value
  exact value

end Evaluation

section Bugs

/-- A handled leaf leaves a value or reads a role that is not there. -/
theorem leaf_handled (handled : CexprHandled e) (third : ThirdGiven xcontext e)
    (leaf : cexprKind e = some .operand) (room : stack.length < cexprMaxdepth) :
    (∃ v, constraintExprStep p scontext tcontext xcontext e stack = .ok (v :: stack)) ∨
      constraintExprStep p scontext tcontext xcontext e stack = .error .fault := by
  have space : ¬ stack.length = cexprMaxdepth := by omega
  unfold constraintExprStep
  rcases kind_operand leaf with type | type
  · rcases cexprEvalAttrStep_handled p scontext tcontext (handled.1 type) with ⟨v, done⟩ | failed
    · left
      use v
      simp [done, type, space, cexprNot, cexprAnd, cexprOr, cexprAttr, bind, Except.bind, pure,
        Except.pure]
    · right
      simp [failed, type, space, cexprNot, cexprAnd, cexprOr, cexprAttr, bind, Except.bind]
  · left
    use namesValue scontext tcontext xcontext e
    rw [cexprEvalNames_eq (third type), if_pos (handled.2 type)]
    simp [type, space, cexprNot, cexprAnd, cexprOr, cexprAttr, cexprNames, bind, Except.bind, pure,
      Except.pure, stopAs]

/-- Handled entries come to their end with the height that the reader saw, or read a role that is not
there. -/
theorem steps_handled {heights after : List Unit}
    (ran : OperandTree.run cexprMaxdepth cexprKind OperandTree.heights es heights = some after)
    (same : stack.length = heights.length) (handled : ∀ e ∈ es, CexprHandled e)
    (third : ∀ e ∈ es, ThirdGiven xcontext e) :
    (∃ stack', constraintExprSteps p scontext tcontext xcontext es stack = .ok stack' ∧
      stack'.length = after.length) ∨
      constraintExprSteps p scontext tcontext xcontext es stack = .error .fault := by
  induction es generalizing stack heights with
  | nil =>
    cases ran
    exact .inl ⟨stack, rfl, same⟩
  | cons e es ih =>
    obtain ⟨next, stepped, rest⟩ := Option.bind_eq_some_iff.mp ran
    have onward {stack' : List Bool} (first : constraintExprStep p scontext tcontext xcontext e stack =
        .ok stack') (height : stack'.length = next.length) :
        (∃ final, constraintExprSteps p scontext tcontext xcontext (e :: es) stack = .ok final ∧
          final.length = after.length) ∨
          constraintExprSteps p scontext tcontext xcontext (e :: es) stack = .error .fault := by
      unfold constraintExprSteps
      rw [first]
      exact ih rest height (fun e member => handled e (by simp [member]))
        fun e member => third e (by simp [member])
    obtain ⟨stack', real, height⟩ :=
      OperandTree.step_height (cexprMeaning p scontext tcontext xcontext) stepped same
    by_cases leaf : cexprKind e = some .operand
    · rw [OperandTree.step_operand leaf] at real
      split at real
      · rename_i room
        cases real
        have outcome : (∃ v, constraintExprStep p scontext tcontext xcontext e stack =
            .ok (v :: stack)) ∨ _ :=
          leaf_handled (handled e (by simp)) (third e (by simp)) leaf room
        rcases outcome with ⟨v, first⟩ | failed
        · exact onward first height
        · right
          unfold constraintExprSteps
          rw [failed]
          rfl
      · cases real
    · exact onward (step_operator real leaf) height

theorem run_handled {allowxtarget : Bool} (row : RowOfTree allowxtarget es)
    (handled : ∀ e ∈ es, CexprHandled e) (third : allowxtarget = true → xcontext.isSome = true) :
    constraintExprRun p scontext tcontext xcontext es ≠ .error .bug := by
  obtain ⟨tree, fits, whole, room⟩ := row.1
  have heights : OperandTree.run cexprMaxdepth cexprKind OperandTree.heights es [] = some [()] :=
    OperandTree.run_single_iff.mpr ⟨tree, fits, whole, room, rfl⟩
  have empty : ([] : List Bool).length = ([] : List Unit).length := rfl
  have outcome : (∃ stack', constraintExprSteps p scontext tcontext xcontext es [] = .ok stack' ∧
      _) ∨ _ := steps_handled heights empty handled (thirdGiven row third)
  unfold constraintExprRun
  rcases outcome with ⟨stack', done, one⟩ | failed
  · match stack' with
    | [v] =>
      rw [done]
      intro bug
      cases bug
  · rw [failed]
    intro bug
    cases bug

/-- The first entry that is not handled is a `BUG()`, where the roles are there. -/
theorem run_unhandled {allowxtarget : Bool} (row : RowOfTree allowxtarget es)
    (roles : RolesThere p scontext tcontext) (third : allowxtarget = true → xcontext.isSome = true)
    (unhandled : ∃ e ∈ es, ¬ CexprHandled e) :
    constraintExprRun p scontext tcontext xcontext es = .error .bug := by
  obtain ⟨done, e, todo, split, handled, bad⟩ := exists_first unhandled
  have given := thirdGiven row third
  obtain ⟨tree, fits, whole, room⟩ := row.1
  have ran : OperandTree.run cexprMaxdepth cexprKind (cexprMeaning p scontext tcontext xcontext) es []
      = some [tree.eval (cexprMeaning p scontext tcontext xcontext)] :=
    OperandTree.run_single_iff.mpr ⟨tree, fits, whole, room, rfl⟩
  rw [split, OperandTree.run_append] at ran
  obtain ⟨stack, part, ran⟩ := Option.bind_eq_some_iff.mp ran
  obtain ⟨next, stepped, -⟩ := Option.bind_eq_some_iff.mp ran
  have before : constraintExprSteps p scontext tcontext xcontext done [] = .ok stack := by
    refine steps_tokens part handled roles fun b here => given b ?_
    rw [split]
    exact List.mem_append_left _ here
  have here : ThirdGiven xcontext e := given e (by simp [split])
  have leaf : cexprKind e = some .operand := by
    by_contra other
    refine bad ⟨fun type => ?_, fun type => ?_⟩
    · exact absurd (kind_of_leaf (.inl type)) other
    · exact absurd (kind_of_leaf (.inr type)) other
  rw [OperandTree.step_operand leaf] at stepped
  split at stepped
  · rename_i space
    have stops := step_leaf leaf space roles here
    rw [if_neg bad] at stops
    unfold constraintExprRun
    rw [split, steps_append, before]
    simp only [bind, Except.bind, constraintExprSteps]
    rw [stops]
  · cases stepped

/-- The expressions of a list run into no `BUG()`, whatever the contexts, where and only where each of
their leaves is handled. -/
theorem no_bug_iff {vers ncons : U32} {allowxtarget : Bool} {bytes rest : List U8}
    {constraints : List ConstraintNode}
    (read : readConsHelper vers ncons allowxtarget bytes = .ok (constraints, rest))
    (inForce : InForce p) :
    (∀ scontext tcontext xcontext, xcontext.isSome = allowxtarget → ∀ constraint ∈ constraints,
      constraintExprRun p scontext tcontext xcontext constraint.expr ≠ .error .bug) ↔
      ∀ constraint ∈ constraints, ∀ e ∈ constraint.expr, CexprHandled e := by
  have rows := readConsHelper_tree read
  constructor
  · intro runs constraint member
    by_contra unhandled
    simp only [not_forall] at unhandled
    obtain ⟨e, inside, bad⟩ := unhandled
    have object := (inForce_tables inForce).objectSlot
    have third : (if allowxtarget then some firstContext else none).isSome = allowxtarget := by
      cases allowxtarget with
      | true => rfl
      | false => rfl
    refine runs firstContext firstContext _ third constraint member ?_
    refine run_unhandled (rows constraint member) ⟨object, object⟩ ?_ ⟨e, inside, bad⟩
    intro allowed
    rw [third, allowed]
  · intro handled scontext tcontext xcontext third constraint member
    refine run_handled (rows constraint member) (handled constraint member) ?_
    intro allowed
    rw [third, allowed]

theorem no_bug_iff_sameUser : ∃ p, InForce p ∧ ∀ scontext tcontext,
    constraintExprRun p scontext tcontext none sameUserTree.tokens ≠ .error .bug := by
  have accepted : smallImage.accepts (fun _ => true) = true := by decide +kernel
  obtain ⟨p, rest, read, -⟩ := PolicyImage.accepts_iff.mp accepted
  have constraints : readConsHelper 33 1 false (constraintBytes sameUser) =
      .ok ([{ permissions := 1, expr := sameUserTree.tokens }], []) := by
    decide
  refine ⟨p, .loaded read, fun scontext tcontext => ?_⟩
  exact (no_bug_iff constraints (.loaded read)).mpr (by decide) scontext tcontext none rfl _
    (List.mem_singleton.mpr rfl)

/-- A leaf with an attribute that there is not is read. It is a `BUG()` for every policy and all
contexts. -/
theorem unknown_attribute_accepted :
    readConsHelper 33 1 false (constraintBytes [(cexprAttr, 0, cexprEq)]) =
        .ok ([{ permissions := 1, expr := [plainExpr cexprAttr 0 cexprEq] }], []) ∧
      ∀ p scontext tcontext,
        constraintExprRun p scontext tcontext none [plainExpr cexprAttr 0 cexprEq] = .error .bug := by
  constructor
  · decide
  · intro p scontext tcontext
    rfl

end Bugs

end Ksrc.Guarantees.ConstraintExprs

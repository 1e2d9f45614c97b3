import Ksrc.Library.OperandTrees
import Ksrc.Guarantees.BooleanStates
import Ksrc.Guarantees.PolicyImages

/-!
# Conditional expressions

Source: `security/selinux/ss/conditional.c` (`cond_evaluate_expr`, `cond_read_node`).

An expression is not checked as a whole when it is read. Its evaluation stops undefined where a value or
room for one is missing; it does not look at how many values are left at the end.
-/
namespace Ksrc.Guarantees.CondExprs

open Library Source PoliciesInForce PolicyImages
open BooleanStates LoadedSlots SafeQueries
open NamedContexts

variable {p : Policydb} {node : CondExprNode} {expr : List CondExprNode} {stack : List Bool}

/-- What a node takes from the stack. -/
def condKind (node : CondExprNode) : Option OperandKind :=
  if node.exprType = condBool then some .operand
  else if node.exprType = condNot then some .unary
  else if node.exprType ∈ [condOr, condAnd, condXor, condEq, condNeq] then some .binary
  else none

/-- Whether a boolean is on. -/
def boolOn (p : Policydb) (boolean : U32) : Bool :=
  match condBoolState p boolean with
  | .ok state => state != 0
  | .error _ => false

/-- What the nodes mean while the booleans have their states. -/
def condMeaning (p : Policydb) : OperandTree.Meaning CondExprNode Bool where
  value node := boolOn p node.boolean
  unary _ v := !v
  binary node v w :=
    if node.exprType = condOr then v || w
    else if node.exprType = condAnd then v && w
    else if node.exprType = condEq then v == w
    else v != w

/-- A truth value as the `int` of the source. -/
def condInt (v : Bool) : U32 := if v then 1 else 0

/-- The tree that an expression stands for, where there is room for its evaluation. -/
def IsTree (expr : List CondExprNode) (tree : OperandTree CondExprNode) : Prop :=
  tree.Fits condKind ∧ tree.tokens = expr ∧ tree.need ≤ condExprMaxdepth

/-- The value of the tree, and -1 where there is none. -/
def EvaluatesTree (p : Policydb) (expr : List CondExprNode) : Prop :=
  (∀ tree, IsTree expr tree → condEvaluateExpr p expr = .ok (condInt (tree.eval (condMeaning p)))) ∧
    ((∀ tree, ¬ IsTree expr tree) → condEvaluateExpr p expr = .ok condUndefined)

/-- No operator lacks a value and no value room, and two or more values are left. -/
def LeavesMore (expr : List CondExprNode) : Prop :=
  ∃ left, OperandTree.run condExprMaxdepth condKind OperandTree.heights expr [] = some left ∧
    2 ≤ left.length

section Nodes

theorem condInt_ne_undefined (v : Bool) : condInt v ≠ condUndefined := by
  cases v with
  | false => decide
  | true => decide

/-- A boolean whose slot is filled. -/
theorem condBoolState_filled (kept : BoolsKept p) {boolean : U32} (filled : Filled p .bools boolean) :
    condBoolState p boolean = .ok (condInt (boolOn p boolean)) := by
  obtain ⟨name, slot, read⟩ :=
    atValue_of_held (show (p.boolValToStruct[_]?.join).isSome = true from filled.2)
  obtain ⟨datum, search⟩ := Option.isSome_iff_exists.mp (kept.loaded.found _ _ slot)
  have state : condBoolState p boolean = .ok datum.state := by
    unfold condBoolState
    rw [read]
    show ((derefPtr (symtabSearch p.pBools name)) >>= fun d => pure d.state) = _
    rw [search]
    rfl
  have value := condBoolState_valid kept.table state
  unfold boolOn
  rw [state]
  rcases value with zero | one
  · rw [zero]
    rfl
  · rw [one]
    rfl

theorem filled_of_condBoolState (kept : BoolsKept p) {boolean state : U32}
    (read : condBoolState p boolean = .ok state) : Filled p .bools boolean := by
  unfold condBoolState at read
  simp only [exceptBind_ok] at read
  obtain ⟨entry, slot, name, there, -⟩ := read
  cases entry with
  | none => cases there
  | some key =>
    unfold atValue at slot
    split at slot
    · rename_i here
      cases slot
      have inside := (List.getElem?_eq_some_iff.mp here).1
      rw [kept.loaded.slots] at inside
      refine ⟨inside, ?_⟩
      show (p.boolValToStruct[(boolean - 1).toNat]?.join).isSome = true
      rw [here]
      rfl
    · cases slot

/-- A binary operator on truth values. -/
theorem condBinary_value (binary : condKind node = some .binary) (v w : Bool) :
    condBinary node.exprType (condInt v) (condInt w) =
      some (condInt ((condMeaning p).binary node v w)) := by
  have member : node.exprType ∈ [condOr, condAnd, condXor, condEq, condNeq] := by
    unfold condKind at binary
    grind
  simp only [List.mem_cons, List.not_mem_nil, or_false] at member
  unfold condBinary condMeaning
  dsimp only
  rcases member with type | type | type | type | type <;>
  · rw [type]
    revert v w
    decide

theorem condBinary_unknown (unknown : condKind node = none) (a b : U32) :
    condBinary node.exprType a b = none := by
  unfold condKind at unknown
  unfold condBinary
  grind

theorem kind_of_binary (bool : node.exprType ≠ condBool) (neg : node.exprType ≠ condNot) :
    condKind node = some .binary ∨ condKind node = none := by
  unfold condKind
  rw [if_neg bool, if_neg neg]
  split
  · exact .inl rfl
  · exact .inr rfl

end Nodes

section Expressions

/-- The bottom of a stack, -1 where it is empty. -/
def bottom (stack : List Bool) : U32 := (stack.map condInt).getLastD condUndefined

/-- The evaluation where the booleans that it comes to are there. -/
theorem condEvaluateNodes_run (kept : BoolsKept p) (space : stack.length ≤ condExprMaxdepth)
    (filled : ∀ boolean ∈ reachedBooleans expr stack.length, Filled p .bools boolean) :
    condEvaluateNodes p expr (stack.map condInt) =
      match OperandTree.run condExprMaxdepth condKind (condMeaning p) expr stack with
      | none => .ok condUndefined
      | some left => .ok (bottom left) := by
  induction expr generalizing stack with
  | nil => rfl
  | cons node rest ih =>
    unfold condEvaluateNodes
    unfold reachedBooleans at filled
    rw [OperandTree.run_cons]
    by_cases bool : node.exprType = condBool
    · have kind : condKind node = some .operand := by
        unfold condKind
        rw [if_pos bool]
      rw [if_pos bool] at filled ⊢
      rw [OperandTree.step_operand kind, List.length_map]
      by_cases full : stack.length = condExprMaxdepth
      · rw [if_pos full, if_neg (by omega)]
        rfl
      · rw [if_neg full] at filled ⊢
        rw [if_pos (by omega)]
        obtain ⟨here, later⟩ := List.forall_mem_cons.mp filled
        rw [condBoolState_filled kept here]
        have longer : ((condMeaning p).value node :: stack).length ≤ condExprMaxdepth := by
          rw [List.length_cons]
          omega
        exact ih longer later
    rw [if_neg bool] at filled ⊢
    by_cases neg : node.exprType = condNot
    · have kind : condKind node = some .unary := by
        unfold condKind
        rw [if_neg bool, if_pos neg]
      rw [if_pos neg] at filled ⊢
      cases stack with
      | nil =>
        unfold OperandTree.step
        rw [kind]
        rfl
      | cons a below =>
        rw [OperandTree.step_unary kind, List.map_cons]
        dsimp only
        have flipped : (if condInt a = 0 then 1 else 0 : U32) = condInt !a := by
          cases a with
          | false => rfl
          | true => rfl
        rw [flipped]
        exact @ih ((!a) :: below) space filled
    rw [if_neg neg] at filled ⊢
    rcases kind_of_binary bool neg with kind | kind
    · cases stack with
      | nil =>
        unfold OperandTree.step
        rw [kind]
        rfl
      | cons b more =>
        cases more with
        | nil =>
          unfold OperandTree.step
          rw [kind]
          rfl
        | cons a below =>
          have value := condBinary_value (p := p) kind a b
          have known : ¬ ((b :: a :: below).length < 2 ∨ condBinary node.exprType 0 0 = none) := by
            rintro (short | unknown)
            · simp only [List.length_cons] at short
              omega
            · rw [(condBinary_none _ _ _).mpr unknown] at value
              cases value
          rw [if_neg known] at filled
          rw [OperandTree.step_binary kind, List.map_cons, List.map_cons]
          dsimp only
          rw [value]
          have shorter : ((condMeaning p).binary node a b :: below).length ≤ condExprMaxdepth := by
            simp only [List.length_cons] at space ⊢
            omega
          exact ih shorter filled
    · have stops : OperandTree.step condExprMaxdepth condKind (condMeaning p) node stack = none := by
        unfold OperandTree.step
        rw [kind]
      rw [stops]
      cases stack with
      | nil => rfl
      | cons b more =>
        cases more with
        | nil => rfl
        | cons a below =>
          rw [List.map_cons, List.map_cons]
          dsimp only
          rw [condBinary_unknown kind]
          rfl

/-- An evaluation that comes to its end read every boolean that it came to. -/
theorem filled_of_evaluates (kept : BoolsKept p) {values : List U32} {v : U32}
    (done : condEvaluateNodes p expr values = .ok v) :
    ∀ boolean ∈ reachedBooleans expr values.length, Filled p .bools boolean := by
  induction expr generalizing values with
  | nil =>
    intro boolean member
    cases member
  | cons node rest ih =>
    unfold condEvaluateNodes at done
    unfold reachedBooleans
    by_cases bool : node.exprType = condBool
    · rw [if_pos bool] at done ⊢
      by_cases full : values.length = condExprMaxdepth
      · rw [if_pos full]
        intro boolean member
        cases member
      · rw [if_neg full] at done ⊢
        cases read : condBoolState p node.boolean with
        | error f =>
          rw [read] at done
          cases done
        | ok state =>
          rw [read] at done
          exact List.forall_mem_cons.mpr ⟨filled_of_condBoolState kept read, ih done⟩
    rw [if_neg bool] at done ⊢
    by_cases neg : node.exprType = condNot
    · rw [if_pos neg] at done ⊢
      cases values with
      | nil =>
        intro boolean member
        cases member
      | cons a below => exact @ih ((if a = 0 then 1 else 0) :: below) done
    rw [if_neg neg] at done ⊢
    split
    · intro boolean member
      cases member
    · rename_i goesOn
      cases values with
      | nil => simp at goesOn
      | cons b more =>
        cases more with
        | nil => simp at goesOn
        | cons a below =>
          dsimp only at done
          cases computed : condBinary node.exprType a b with
          | none =>
            exact absurd (.inr ((condBinary_none _ a b).mp computed)) goesOn
          | some w =>
            rw [computed] at done
            exact @ih (w :: below) done

theorem condEvaluateExpr_nodes :
    condEvaluateExpr p expr = condEvaluateNodes p expr [] := by
  cases expr with
  | nil => rfl
  | cons node rest => rfl

theorem leavesMore_iff (m : OperandTree.Meaning CondExprNode Bool) : LeavesMore expr ↔ ∃ left,
    OperandTree.run condExprMaxdepth condKind m expr [] = some left ∧ 2 ≤ left.length := by
  have empty : ([] : List Bool).length = ([] : List Unit).length := rfl
  constructor
  · rintro ⟨left, ran, more⟩
    obtain ⟨left', ran', same⟩ := OperandTree.run_height m ran empty
    exact ⟨left', ran', same ▸ more⟩
  · rintro ⟨left, ran, more⟩
    obtain ⟨left', ran', same⟩ := OperandTree.run_height OperandTree.heights ran empty.symm
    exact ⟨left', ran', same ▸ more⟩

theorem bottom_defined {left : List Bool} (some : left ≠ []) : ∃ v, bottom left = condInt v := by
  rcases List.eq_nil_or_concat left with none | ⟨front, v, rfl⟩
  · exact absurd none some
  · refine ⟨v, ?_⟩
    unfold bottom
    simp

/-- The trees of an expression, by its run. -/
theorem isTree_run {β : Type} {tree : OperandTree CondExprNode} (m : OperandTree.Meaning CondExprNode β)
    (is : IsTree expr tree) :
    OperandTree.run condExprMaxdepth condKind m expr [] = some [tree.eval m] :=
  OperandTree.run_single_iff.mpr ⟨tree, is.1, is.2.1, is.2.2, rfl⟩

/-- An expression evaluates to the value of its tree, or to -1 where it has none, when and only when
every boolean that its evaluation comes to is there and it does not leave two values or more. -/
theorem evaluates_tree_iff (inForce : InForce p) (expr : List CondExprNode) :
    EvaluatesTree p expr ↔
      (∀ boolean ∈ reachedBooleans expr 0, Filled p .bools boolean) ∧ ¬ LeavesMore expr := by
  have kept := inForce_bools inForce
  unfold EvaluatesTree
  rw [condEvaluateExpr_nodes]
  constructor
  · rintro ⟨whole, other⟩
    have filled : ∀ boolean ∈ reachedBooleans expr 0, Filled p .bools boolean := by
      by_cases tree : ∃ t, IsTree expr t
      · obtain ⟨t, is⟩ := tree
        exact filled_of_evaluates kept (whole t is)
      · exact filled_of_evaluates kept (other fun t is => tree ⟨t, is⟩)
    refine ⟨filled, fun more => ?_⟩
    obtain ⟨left, ran, many⟩ := (leavesMore_iff (condMeaning p)).mp more
    have none : ∀ tree, ¬ IsTree expr tree := by
      intro tree is
      have single := isTree_run (condMeaning p) is
      rw [ran] at single
      cases single
      simp at many
    have undefined := other none
    have value : condEvaluateNodes p expr (([] : List Bool).map condInt) = _ :=
      condEvaluateNodes_run kept (Nat.zero_le _) filled
    rw [ran] at value
    have nonempty : left ≠ [] := by
      rintro rfl
      simp at many
    obtain ⟨v, defined⟩ := bottom_defined nonempty
    have same := undefined.symm.trans value
    dsimp only at same
    rw [defined] at same
    exact condInt_ne_undefined v (by injection same.symm)
  · rintro ⟨filled, few⟩
    have value : condEvaluateNodes p expr (([] : List Bool).map condInt) = _ :=
      condEvaluateNodes_run kept (Nat.zero_le _) filled
    rw [List.map_nil] at value
    constructor
    · intro tree is
      rw [value, isTree_run (condMeaning p) is]
      rfl
    · intro none
      rw [value]
      cases ran : OperandTree.run condExprMaxdepth condKind (condMeaning p) expr [] with
      | none => rfl
      | some left =>
        match left with
        | [] => rfl
        | [v] =>
          obtain ⟨tree, fits, row, room, -⟩ := OperandTree.run_single_iff.mp ran
          exact absurd ⟨fits, row, room⟩ (none tree)
        | _ :: _ :: _ =>
          exact absurd ((leavesMore_iff (condMeaning p)).mpr ⟨_, ran, by simp⟩) few

/-- A boolean that is on, and a conditional of it twice. -/
def twiceImage : PolicyImage :=
  { smallImage with
    bools := symbols 1 [boolBytes 1 1 (cstr ['c'])]
    conds := counted [condBytes 0 [(1, 1), (1, 1)] [] []] }

def boolNode : CondExprNode := { exprType := condBool, boolean := 1 }
def notNode : CondExprNode := { exprType := condNot, boolean := 0 }

theorem evaluates_tree_iff_not : ∃ p rest, policydbRead twiceImage.bytes = .ok (p, rest) ∧
    EvaluatesTree p [boolNode, notNode] := by
  have accepted : twiceImage.accepts
      (fun p => 0 < p.pBools.nprim.toNat && (p.boolValToStruct[0]?.join).isSome) = true := by
    decide +kernel
  obtain ⟨p, rest, read, test⟩ := PolicyImage.accepts_iff.mp accepted
  rw [Bool.and_eq_true, decide_eq_true_eq] at test
  refine ⟨p, rest, read, (evaluates_tree_iff (.loaded read) _).mpr ⟨?_, ?_⟩⟩
  · intro boolean member
    have one : boolean = 1 := by simpa [reachedBooleans, boolNode, notNode, condExprMaxdepth, condBool,
      condNot] using member
    subst one
    exact ⟨test.1, test.2⟩
  · rintro ⟨left, ran, more⟩
    cases ran
    simp at more

/-- The conditional is accepted and has the value of its first boolean; it is the row of no tree. -/
theorem two_values_accepted : ∃ p rest node, policydbRead twiceImage.bytes = .ok (p, rest) ∧
    node ∈ p.condList ∧ node.expr = [boolNode, boolNode] ∧
      condEvaluateExpr p node.expr = .ok 1 ∧ (∀ tree, ¬ IsTree node.expr tree) ∧
        ¬ EvaluatesTree p node.expr := by
  have accepted : twiceImage.accepts (fun p => p.condList.any fun node =>
      node.expr == [boolNode, boolNode] && (condEvaluateExpr p node.expr).toOption == some 1) = true := by
    decide +kernel
  obtain ⟨p, rest, read, test⟩ := PolicyImage.accepts_iff.mp accepted
  obtain ⟨node, member, test⟩ := List.any_eq_true.mp test
  rw [Bool.and_eq_true, beq_iff_eq] at test
  obtain ⟨expr, test⟩ := test
  have value : condEvaluateExpr p node.expr = .ok 1 := by
    cases evaluated : condEvaluateExpr p node.expr with
    | error f => simp [evaluated, Except.toOption] at test
    | ok v => simpa [evaluated, Except.toOption] using test
  have none : ∀ tree, ¬ IsTree node.expr tree := by
    intro tree is
    have single := isTree_run OperandTree.heights is
    rw [expr] at single
    cases single
  refine ⟨p, rest, node, read, member, expr, value, none, fun evaluates => ?_⟩
  have undefined := evaluates.2 none
  rw [value] at undefined
  cases undefined

end Expressions

end Ksrc.Guarantees.CondExprs

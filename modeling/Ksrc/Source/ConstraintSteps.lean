import Ksrc.Source.Services

/-!
# Constraint expressions, entry by entry

Source: `security/selinux/ss/services.c` (`constraint_expr_eval`). What the evaluator does at one
entry, with its three ways to stop kept apart: the `return 0` at a full stack, a `BUG()`, and the
read of a role that is not there.
-/
namespace Ksrc.Source

inductive CexprStop where
  | early
  | bug
  | fault
  deriving DecidableEq, Repr

/-- A failure, as a stop of one kind. -/
def stopAs {α : Type} (stop : CexprStop) : Except Fault α → Except CexprStop α
  | .ok a => .ok a
  | .error _ => .error stop

/-- The role case of `CEXPR_ATTR`: the roles are read before the operator is looked at. -/
def cexprRolesStep (p : Policydb) (op val1 val2 : U32) : Except CexprStop Bool := do
  let _ ← stopAs .fault (atValue p.roleValToStruct val1)
  let _ ← stopAs .fault (atValue p.roleValToStruct val2)
  if op = cexprDom ∨ op = cexprDomby ∨ op = cexprIncomp then
    stopAs .fault (cexprRoles p op val1 val2)
  else stopAs .bug (cexprCompare op val1 val2)

/-- `CEXPR_ATTR`: only the roles are read through a table. -/
def cexprEvalAttrStep (p : Policydb) (scontext tcontext : Context) (e : ConstraintExpr) :
    Except CexprStop Bool :=
  if e.attr = cexprRole then cexprRolesStep p e.op scontext.role tcontext.role
  else stopAs .bug (cexprEvalAttr p scontext tcontext e)

section Entries

variable (p : Policydb) (scontext tcontext : Context) (xcontext : Option Context)

/-- One entry, on the stack with its top in front. -/
def constraintExprStep (e : ConstraintExpr) (stack : List Bool) : Except CexprStop (List Bool) :=
  if e.exprType = cexprNot then
    match stack with
    | a :: below => .ok ((!a) :: below)
    | [] => .error .bug
  else if e.exprType = cexprAnd then
    match stack with
    | b :: a :: below => .ok ((a && b) :: below)
    | _ => .error .bug
  else if e.exprType = cexprOr then
    match stack with
    | b :: a :: below => .ok ((a || b) :: below)
    | _ => .error .bug
  else if e.exprType = cexprAttr then
    if stack.length = cexprMaxdepth then .error .early
    else do
      let v ← cexprEvalAttrStep p scontext tcontext e
      pure (v :: stack)
  else if e.exprType = cexprNames then
    if stack.length = cexprMaxdepth then .error .early
    else do
      -- a missing third context is a `BUG()` here, not a read through it
      let v ← stopAs .bug (cexprEvalNames scontext tcontext xcontext e)
      pure (v :: stack)
  else .error .bug

def constraintExprSteps : List ConstraintExpr → List Bool → Except CexprStop (List Bool)
  | [], stack => .ok stack
  | e :: rest, stack => do
    let stack ← constraintExprStep p scontext tcontext xcontext e stack
    constraintExprSteps rest stack

/-- `BUG_ON(sp != 0); return s[0];` -/
def constraintExprResult : List Bool → Except CexprStop Bool
  | [v] => .ok v
  | _ => .error .bug

/-- `constraint_expr_eval`, with the way in which it stops. -/
def constraintExprRun (expr : List ConstraintExpr) : Except CexprStop Bool := do
  let stack ← constraintExprSteps p scontext tcontext xcontext expr []
  constraintExprResult stack

end Entries

/-- What the caller sees of a run. -/
def CexprStop.seen : Except CexprStop Bool → Except Fault Bool
  | .ok v => .ok v
  | .error .early => .ok false
  | .error .bug => .error .oops
  | .error .fault => .error .oops

end Ksrc.Source

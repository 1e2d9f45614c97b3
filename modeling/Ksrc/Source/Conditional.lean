import Ksrc.Source.Policydb

/-!
# Conditional rules

Source: `security/selinux/ss/conditional.c` (`cond_evaluate_expr`, `evaluate_cond_nodes`,
`cond_compute_av`, `cond_compute_xperms`), `security/selinux/ss/services.c`
(`services_compute_xperms_drivers`, `services_compute_xperms_decision`).
-/
namespace Ksrc.Source

def condExprMaxdepth : Nat := 10

def condBool : U32 := 1
def condNot : U32 := 2
def condOr : U32 := 3
def condAnd : U32 := 4
def condXor : U32 := 5
def condEq : U32 := 6
def condNeq : U32 := 7
def condLast : U32 := condNeq

/-- An undefined expression, -1. -/
def condUndefined : U32 := 0xffffffff

/-- The binary operators of `cond_evaluate_expr`, on `int` values. -/
def condBinary (exprType a b : U32) : Option U32 :=
  if exprType = condOr then some (a ||| b)
  else if exprType = condAnd then some (a &&& b)
  else if exprType = condXor then some (a ^^^ b)
  else if exprType = condEq then some (if a = b then 1 else 0)
  else if exprType = condNeq then some (if a ≠ b then 1 else 0)
  else none

/-- The state of the boolean a node names. -/
def condBoolState (p : Policydb) (boolean : U32) : Except Fault U32 := do
  let entry ← atValue p.boolValToStruct boolean
  let name ← derefPtr entry
  let booldatum ← derefPtr (symtabSearch p.pBools name)
  pure booldatum.state

/-- The loop of `cond_evaluate_expr` over a stack with its top in front; it returns the
bottom of the stack. -/
def condEvaluateNodes (p : Policydb) : List CondExprNode → List U32 → Except Fault U32
  | [], stack => .ok (stack.getLastD condUndefined)
  | node :: rest, stack =>
    if node.exprType = condBool then
      if stack.length = condExprMaxdepth then .ok condUndefined
      else
        match condBoolState p node.boolean with
        | .error e => .error e
        | .ok state => condEvaluateNodes p rest (state :: stack)
    else if node.exprType = condNot then
      match stack with
      | [] => .ok condUndefined
      | a :: below => condEvaluateNodes p rest ((if a = 0 then 1 else 0) :: below)
    else
      match stack with
      | b :: a :: below =>
        match condBinary node.exprType a b with
        | none => .ok condUndefined
        | some v => condEvaluateNodes p rest (v :: below)
      | _ => .ok condUndefined

/-- `cond_evaluate_expr`. -/
def condEvaluateExpr (p : Policydb) (expr : List CondExprNode) : Except Fault U32 :=
  if expr.isEmpty then .ok condUndefined else condEvaluateNodes p expr []

/-- `avnode->key.specified |= AVTAB_ENABLED` or `&= ~AVTAB_ENABLED`. -/
def avtabSetEnabled (on : Bool) (h : Avtab) (addr : Nat) : Avtab :=
  let switch (n : AvtabNode) : AvtabNode :=
    if n.addr = addr then
      let specified := if on then n.key.specified ||| avtabEnabled
        else n.key.specified &&& ~~~avtabEnabled
      { n with key := { n.key with specified } }
    else n
  { h with htable := h.htable.map (·.map switch) }

/-- `evaluate_cond_node`: the rules of both lists are switched when the state changes. -/
def evaluateCondNode (p : Policydb) (teCondAvtab : Avtab) (node : CondNode) :
    Except Fault (Avtab × CondNode) :=
  match condEvaluateExpr p node.expr with
  | .error e => .error e
  | .ok newState =>
    if newState = node.curState then .ok (teCondAvtab, node)
    else
      let whenTrue := node.trueList.foldl (avtabSetEnabled (0 < newState.toInt)) teCondAvtab
      let whenFalse := node.falseList.foldl (avtabSetEnabled (newState = 0)) whenTrue
      .ok (whenFalse, { node with curState := newState })

/-- The loop of `evaluate_cond_nodes`. -/
def evaluateCondList (p : Policydb) :
    List CondNode → Avtab → Except Fault (Avtab × List CondNode)
  | [], table => .ok (table, [])
  | node :: rest, table =>
    match evaluateCondNode p table node with
    | .error e => .error e
    | .ok (table, node) =>
      match evaluateCondList p rest table with
      | .error e => .error e
      | .ok (table, nodes) => .ok (table, node :: nodes)

/-- `evaluate_cond_nodes`. -/
def evaluateCondNodes (p : Policydb) : Except Fault Policydb :=
  match evaluateCondList p p.condList p.teCondAvtab with
  | .error e => .error e
  | .ok (teCondAvtab, condList) => .ok { p with teCondAvtab, condList }

/-- `services_compute_xperms_drivers`, of a node whose datum is an extended one. -/
def servicesComputeXpermsDrivers (xperms : ExtendedPerms) (node : AvtabNode) : ExtendedPerms :=
  match node.datum with
  | .data _ => xperms
  | .xperms x =>
    { len := 1
      drivers :=
        if x.specified = avtabXpermsIoctldriver then xperms.drivers.or x.perms
        else if x.specified = avtabXpermsIoctlfunction then
          securityXpermSet xperms.drivers x.driver
        else xperms.drivers }

/-- One node in the loop of `cond_compute_av`; `xperms` is `none` for `NULL`. -/
def condComputeNode (acc : AvDecision × Option ExtendedPerms) (node : AvtabNode) :
    AvDecision × Option ExtendedPerms :=
  let (avd, xperms) := acc
  let both (flag : U16) : Bool :=
    node.key.specified &&& (flag ||| avtabEnabled) == flag ||| avtabEnabled
  let avd := if both avtabAllowed then { avd with allowed := avd.allowed ||| node.datum.u } else avd
  let avd := if both avtabAuditdeny then { avd with auditdeny := avd.auditdeny &&& node.datum.u }
    else avd
  let avd := if both avtabAuditallow then
      { avd with auditallow := avd.auditallow ||| node.datum.u }
    else avd
  let xperms :=
    if node.key.specified &&& avtabEnabled ≠ 0 ∧ node.key.specified &&& avtabXperms ≠ 0 then
      xperms.map (servicesComputeXpermsDrivers · node)
    else xperms
  (avd, xperms)

/-- `cond_compute_av`. -/
def condComputeAv (ctab : Avtab) (key : AvtabKey) (acc : AvDecision × Option ExtendedPerms) :
    AvDecision × Option ExtendedPerms :=
  (avtabMatches ctab key).foldl condComputeNode acc

/-- One of the three maps of a decision: 256 ones for a driver rule, the union for a
function rule. -/
def xpermsMap (x : AvtabExtendedPerms) (map : Option ExtendedPermsData) :
    Option ExtendedPermsData :=
  if x.specified = avtabXpermsIoctldriver then map.map fun _ => .ones
  else if x.specified = avtabXpermsIoctlfunction then map.map (·.or x.perms)
  else map

/-- Whether a rule says something about the driver of the decision. -/
def xpermsApplies (x : AvtabExtendedPerms) (driver : U8) : Bool :=
  if x.specified = avtabXpermsIoctlfunction then driver == x.driver
  else if x.specified = avtabXpermsIoctldriver then securityXpermTest x.perms driver
  else false

/-- `services_compute_xperms_decision`. -/
def servicesComputeXpermsDecision (xpermd : ExtendedPermsDecision) (node : AvtabNode) :
    ExtendedPermsDecision :=
  match node.datum with
  | .data _ => xpermd
  | .xperms x =>
    if xpermsApplies x xpermd.driver then
      if node.key.specified = avtabXpermsAllowed then
        { xpermd with used := xpermd.used ||| xpermsAllowed, allowed := xpermsMap x xpermd.allowed }
      else if node.key.specified = avtabXpermsAuditallow then
        { xpermd with
          used := xpermd.used ||| xpermsAuditallow
          auditallow := xpermsMap x xpermd.auditallow }
      else if node.key.specified = avtabXpermsDontaudit then
        { xpermd with
          used := xpermd.used ||| xpermsDontaudit
          dontaudit := xpermsMap x xpermd.dontaudit }
      else xpermd
    else xpermd

/-- `cond_compute_xperms`. -/
def condComputeXperms (ctab : Avtab) (key : AvtabKey) (xpermd : ExtendedPermsDecision) :
    ExtendedPermsDecision :=
  (avtabMatches ctab key).foldl
    (fun xpermd node =>
      if node.key.specified &&& avtabEnabled ≠ 0 then servicesComputeXpermsDecision xpermd node
      else xpermd) xpermd

end Ksrc.Source

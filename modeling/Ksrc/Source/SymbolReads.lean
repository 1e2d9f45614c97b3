import Ksrc.Library.Traces
import Ksrc.Source.SelinuxMapping

/-!
# Queries with the slots they read

Source: `security/selinux/ss/services.c` (`context_struct_to_string`, `constraint_expr_eval`,
`security_dump_masked_av`, `type_attribute_bounds_av`, `context_struct_compute_av`), `mls.c`
(`mls_sid_to_context`, `mls_compute_context_len`, `mls_context_isvalid`), `policydb.c`
(`policydb_context_isvalid`), `conditional.c` (`cond_evaluate_expr`).

The functions of the modules before, written once more with every index into `sym_val_to_name` and the
arrays of data by value. The audit record of masked permissions, which they leave out, is here.
-/
namespace Ksrc.Source

open Library

/-- The arrays that are indexed by value: `sym_val_to_name` of a symbol table, and those of data. -/
inductive ValueArray where
  | userNames
  | roleNames
  | typeNames
  | classNames
  | levelNames
  | catNames
  | classes
  | roles
  | users
  | types
  | bools
  deriving DecidableEq, Repr

namespace ValueArray

/-- `nprim` of the symbol table. -/
def nprim (p : Policydb) : ValueArray → U32
  | .userNames => p.pUsers.nprim
  | .roleNames => p.pRoles.nprim
  | .typeNames => p.pTypes.nprim
  | .classNames => p.pClasses.nprim
  | .levelNames => p.pLevels.nprim
  | .catNames => p.pCats.nprim
  | .classes => p.pClasses.nprim
  | .roles => p.pRoles.nprim
  | .users => p.pUsers.nprim
  | .types => p.pTypes.nprim
  | .bools => p.pBools.nprim

/-- Whether the slot at an index is there and not `NULL`. -/
def holds (p : Policydb) (i : Nat) : ValueArray → Bool
  | .userNames => (p.symValToName.users[i]?.join).isSome
  | .roleNames => (p.symValToName.roles[i]?.join).isSome
  | .typeNames => (p.symValToName.types[i]?.join).isSome
  | .classNames => (p.symValToName.classes[i]?.join).isSome
  | .levelNames => (p.symValToName.levels[i]?.join).isSome
  | .catNames => (p.symValToName.cats[i]?.join).isSome
  | .classes => (p.classValToStruct[i]?.join).isSome
  | .roles => (p.roleValToStruct[i]?.join).isSome
  | .users => (p.userValToStruct[i]?.join).isSome
  | .types => (p.typeValToStruct[i]?.join).isSome
  | .bools => (p.boolValToStruct[i]?.join).isSome

end ValueArray

/-- The slot `array[value - 1]`. -/
structure Slot where
  array : ValueArray
  value : U32
  deriving DecidableEq, Repr

/-- The index is within `0..nprim - 1`, and the slot holds an entry. -/
def Slot.Filled (p : Policydb) (slot : Slot) : Prop :=
  (slot.value - 1).toNat < (slot.array.nprim p).toNat ∧
    slot.array.holds p (slot.value - 1).toNat = true

/-- A computation over a policy that reads slots. -/
abbrev Asking := Traced Slot Fault

section Printing

variable (p : Policydb)

/-- `sym_name` of a value. -/
def symNameReads (array : ValueArray) (names : List (Option Name)) (value : U32) : Asking Name := do
  let entry ← Traced.read ⟨array, value⟩ (atValue names value)
  Traced.lift (derefPtr entry)

def catNameReads (value : U32) : Asking Name := symNameReads .catNames p.symValToName.cats value

/-- The close of a run of categories that ends with `prev`. -/
def mlsSidToContextCloseReads (head prev : Int) : Asking (List U8) :=
  if prev ≠ head then do
    let name ← catNameReads p (BitVec.ofInt 32 prev + 1)
    pure ((if prev - head > 1 then dot else comma) :: name)
  else pure []

/-- The loop over the categories of a level in `mls_sid_to_context`. -/
def mlsSidToContextCatsReads : List U32 → Int → Int → Asking (List U8)
  | [], head, prev => mlsSidToContextCloseReads p head prev
  | i :: rest, head, prev =>
    if i.toInt - prev > 1 then do
      let close ← mlsSidToContextCloseReads p head prev
      let name ← catNameReads p (i + 1)
      let later ← mlsSidToContextCatsReads rest i.toInt i.toInt
      pure (close ++ (if prev < 0 then colon else comma) :: name ++ later)
    else mlsSidToContextCatsReads rest head i.toInt

/-- One level in `mls_sid_to_context`. -/
def mlsSidToContextLevelReads (l : MlsLevel) : Asking (List U8) := do
  let sens ← symNameReads .levelNames p.symValToName.levels l.sens
  let cats ← mlsSidToContextCatsReads p (ebitmapPositiveBits l.cat) (-2) (-2)
  pure (sens ++ cats)

/-- `mls_sid_to_context`. -/
def mlsSidToContextReads (context : Context) : Asking (List U8) :=
  if ¬ p.mlsEnabled then pure []
  else do
    let low ← mlsSidToContextLevelReads p context.range.low
    if mlsLevelEq context.range.low context.range.high then pure (colon :: low)
    else do
      let high ← mlsSidToContextLevelReads p context.range.high
      pure (colon :: low ++ dash :: high)

/-- The close of a run in `mls_compute_context_len`. -/
def mlsComputeCloseLenReads (head prev : Int) : Asking Nat :=
  if head ≠ prev then do
    let name ← catNameReads p (BitVec.ofInt 32 prev + 1)
    pure (name.length + 1)
  else pure 0

/-- The loop over the categories in `mls_compute_context_len`. -/
def mlsComputeCatsLenReads : List U32 → Int → Int → Asking Nat
  | [], head, prev => mlsComputeCloseLenReads p head prev
  | i :: rest, head, prev =>
    if i.toInt - prev > 1 then do
      let close ← mlsComputeCloseLenReads p head prev
      let name ← catNameReads p (i + 1)
      let later ← mlsComputeCatsLenReads rest i.toInt i.toInt
      pure (close + (name.length + 1) + later)
    else mlsComputeCatsLenReads rest head i.toInt

def mlsComputeLevelLenReads (l : MlsLevel) : Asking Nat := do
  let sens ← symNameReads .levelNames p.symValToName.levels l.sens
  let cats ← mlsComputeCatsLenReads p (ebitmapPositiveBits l.cat) (-2) (-2)
  pure (sens.length + cats)

/-- `mls_compute_context_len`. -/
def mlsComputeContextLenReads (context : Context) : Asking Nat :=
  if ¬ p.mlsEnabled then pure 0
  else do
    let low ← mlsComputeLevelLenReads p context.range.low
    if mlsLevelEq context.range.low context.range.high then pure (1 + low)
    else do
      let high ← mlsComputeLevelLenReads p context.range.high
      pure (1 + low + 1 + high)

/-- `context_struct_to_string`. -/
def contextStructToStringReads (context : Context) : Asking (List U8 × Nat) :=
  match context.str with
  | some str => pure (str, context.len)
  | none => do
    let user ← symNameReads .userNames p.symValToName.users context.user
    let role ← symNameReads .roleNames p.symValToName.roles context.role
    let type ← symNameReads .typeNames p.symValToName.types context.type
    let mlsLen ← mlsComputeContextLenReads p context
    let mls ← mlsSidToContextReads p context
    pure (user ++ colon :: role ++ colon :: type ++ mls,
      (user.length + 1) + (role.length + 1) + (type.length + 1) + mlsLen)

end Printing

section Validity

variable (p : Policydb)

/-- `mls_level_isvalid`. -/
def mlsLevelIsvalidReads (l : MlsLevel) : Asking Bool :=
  if l.sens = 0 ∨ p.pLevels.nprim < l.sens then pure false
  else do
    let name ← symNameReads .levelNames p.symValToName.levels l.sens
    match symtabSearch p.pLevels name with
    | none => pure false
    | some levdatum => pure (ebitmapContains levdatum.level.cat l.cat p.pCats.nprim)

/-- `mls_range_isvalid`. -/
def mlsRangeIsvalidReads (r : MlsRange) : Asking Bool := do
  if ← mlsLevelIsvalidReads p r.low then
    if ← mlsLevelIsvalidReads p r.high then pure (mlsLevelDom r.high r.low) else pure false
  else pure false

/-- `mls_context_isvalid`. -/
def mlsContextIsvalidReads (c : Context) : Asking Bool :=
  if ¬ p.mlsEnabled then pure true
  else do
    if ← mlsRangeIsvalidReads p c.range then
      if c.role = objectRVal then pure true
      else if c.user = 0 ∨ p.pUsers.nprim < c.user then pure false
      else do
        let entry ← Traced.read ⟨.users, c.user⟩ (atValue p.userValToStruct c.user)
        let usrdatum ← Traced.lift (derefPtr entry)
        pure (mlsRangeContains usrdatum.range c.range)
    else pure false

/-- `policydb_context_isvalid`. -/
def policydbContextIsvalidReads (c : Context) : Asking Bool :=
  if c.role = 0 ∨ p.pRoles.nprim < c.role then pure false
  else if c.user = 0 ∨ p.pUsers.nprim < c.user then pure false
  else if c.type = 0 ∨ p.pTypes.nprim < c.type then pure false
  else if c.role ≠ objectRVal then do
    match ← Traced.read ⟨.roles, c.role⟩ (atValue p.roleValToStruct c.role) with
    | none => pure false
    | some role =>
      if ebitmapGetBit role.types (c.type - 1).toNat then
        match ← Traced.read ⟨.users, c.user⟩ (atValue p.userValToStruct c.user) with
        | none => pure false
        | some usrdatum =>
          if ebitmapGetBit usrdatum.roles (c.role - 1).toNat then mlsContextIsvalidReads p c
          else pure false
      else pure false
  else mlsContextIsvalidReads p c

end Validity

section Constraints

variable (p : Policydb)

/-- The role case of `CEXPR_ATTR`. -/
def cexprRolesReads (op val1 val2 : U32) : Asking Bool := do
  let r1 ← Traced.read ⟨.roles, val1⟩ (atValue p.roleValToStruct val1)
  let r2 ← Traced.read ⟨.roles, val2⟩ (atValue p.roleValToStruct val2)
  if op = cexprDom then Traced.lift (roleDominates r1 val2)
  else if op = cexprDomby then Traced.lift (roleDominates r2 val1)
  else if op = cexprIncomp then
    if ← Traced.lift (roleDominates r1 val2) then pure false
    else do
      let dominated ← Traced.lift (roleDominates r2 val1)
      pure (!dominated)
  else Traced.lift (cexprCompare op val1 val2)

/-- `CEXPR_ATTR` of `constraint_expr_eval`: the other attributes read no array. -/
def cexprEvalAttrReads (scontext tcontext : Context) (e : ConstraintExpr) : Asking Bool :=
  if e.attr = cexprRole then cexprRolesReads p e.op scontext.role tcontext.role
  else Traced.lift (cexprEvalAttr p scontext tcontext e)

/-- `constraint_expr_eval`, over a stack with its top in front. -/
def constraintExprEvalReads (scontext tcontext : Context) :
    List ConstraintExpr → List Bool → Asking Bool
  | [], [v] => pure v
  | [], _ => Traced.lift (.error .oops)
  | e :: rest, stack =>
    if e.exprType = cexprNot then
      match stack with
      | a :: below => constraintExprEvalReads scontext tcontext rest ((!a) :: below)
      | [] => Traced.lift (.error .oops)
    else if e.exprType = cexprAnd then
      match stack with
      | b :: a :: below => constraintExprEvalReads scontext tcontext rest ((a && b) :: below)
      | _ => Traced.lift (.error .oops)
    else if e.exprType = cexprOr then
      match stack with
      | b :: a :: below => constraintExprEvalReads scontext tcontext rest ((a || b) :: below)
      | _ => Traced.lift (.error .oops)
    else if e.exprType = cexprAttr then
      if stack.length = cexprMaxdepth then pure false
      else do
        let v ← cexprEvalAttrReads p scontext tcontext e
        constraintExprEvalReads scontext tcontext rest (v :: stack)
    else if e.exprType = cexprNames then
      if stack.length = cexprMaxdepth then pure false
      else do
        let v ← Traced.lift (cexprEvalNames scontext tcontext none e)
        constraintExprEvalReads scontext tcontext rest (v :: stack)
    else Traced.lift (.error .oops)

/-- The loop over the constraints of the class. -/
def computeAvConstraintsReads (scontext tcontext : Context) : List ConstraintNode → U32 → Asking U32
  | [], allowed => pure allowed
  | constraint :: rest, allowed =>
    if constraint.permissions &&& allowed ≠ 0 then do
      let holds ← constraintExprEvalReads p scontext tcontext constraint.expr []
      computeAvConstraintsReads scontext tcontext rest
        (if holds then allowed else allowed &&& ~~~constraint.permissions)
    else computeAvConstraintsReads scontext tcontext rest allowed

end Constraints

section Decisions

variable (p : Policydb)

/-- `context_struct_compute_av` up to `type_attribute_bounds_av`, of a class of the policy. -/
def computeAvUnboundedReads (scontext tcontext : Context) (tclass : U16)
    (acc : AvDecision × Option ExtendedPerms) : Asking (AvDecision × Option ExtendedPerms) := do
  let tclassDatum ← Traced.read ⟨.classes, tclass.zeroExtend 32⟩
    (atValue p.classValToStruct (tclass.zeroExtend 32))
  let sattr ← Traced.lift (atValue p.typeAttrMapArray scontext.type)
  let tattr ← Traced.lift (atValue p.typeAttrMapArray tcontext.type)
  let computed := computeAvRules p tclass sattr tattr acc
  let tclassDatum ← Traced.lift (derefPtr tclassDatum)
  let allowed ← computeAvConstraintsReads p scontext tcontext tclassDatum.constraints
    computed.1.allowed
  pure ({ computed.1 with allowed := computeAvRoles p scontext tcontext tclass allowed }, computed.2)

/-- `lo_scontext` and `lo_tcontext` of `type_attribute_bounds_av`, if the source is bounded. -/
def boundingContextsReads (scontext tcontext : Context) : Asking (Option (Context × Context)) := do
  let source ← Traced.read ⟨.types, scontext.type⟩ (atValue p.typeValToStruct scontext.type)
  let source ← Traced.lift (derefPtr source)
  if source.bounds = 0 then pure none
  else do
    let target ← Traced.read ⟨.types, tcontext.type⟩ (atValue p.typeValToStruct tcontext.type)
    let target ← Traced.lift (derefPtr target)
    pure (some ({ scontext with type := source.bounds },
      if target.bounds ≠ 0 then { tcontext with type := target.bounds } else tcontext))

/-- `security_dump_masked_av`. -/
def securityDumpMaskedAvReads (scontext tcontext : Context) (tclass : U16) (permissions : U32) :
    Asking Unit :=
  if permissions = 0 then pure ()
  else do
    let _ ← Traced.read ⟨.classNames, tclass.zeroExtend 32⟩
      (atValue p.symValToName.classes (tclass.zeroExtend 32))
    let tclassDat ← Traced.read ⟨.classes, tclass.zeroExtend 32⟩
      (atValue p.classValToStruct (tclass.zeroExtend 32))
    let tclassDat ← Traced.lift (derefPtr tclassDat)
    let _ ← Traced.lift (dumpPermissionNames tclassDat)
    let _ ← contextStructToStringReads p scontext
    let _ ← contextStructToStringReads p tcontext
    pure ()

/-- `context_struct_compute_av`, with `type_attribute_bounds_av` and its audit record at the end. -/
def contextStructComputeAvDepthReads : Nat → Context → Context → U16 → AvDecision →
    Option ExtendedPerms → Asking (AvDecision × Option ExtendedPerms)
  | 0, _, _, _, _, _ => Traced.lift (.error .oops)
  | depth + 1, scontext, tcontext, tclass, avd, xperms =>
    let cleared : AvDecision × Option ExtendedPerms :=
      ({ avd with allowed := 0, auditallow := 0, auditdeny := 0xffffffff },
        xperms.map fun _ => { len := 0, drivers := .zero })
    if tclass = 0 ∨ p.pClasses.nprim < tclass.zeroExtend 32 then pure cleared
    else do
      let computed ← computeAvUnboundedReads p scontext tcontext tclass cleared
      match ← boundingContextsReads p scontext tcontext with
      | none => pure computed
      | some lo => do
        let lower ← contextStructComputeAvDepthReads depth lo.1 lo.2 tclass
          { allowed := 0, auditallow := 0, auditdeny := 0, seqno := 0, flags := 0 } none
        let masked := ~~~lower.1.allowed &&& computed.1.allowed
        securityDumpMaskedAvReads p scontext tcontext tclass masked
        pure ({ computed.1 with allowed := computed.1.allowed &&& ~~~masked }, computed.2)

/-- `context_struct_compute_av`. -/
def contextStructComputeAvReads (scontext tcontext : Context) (tclass : U16) (avd : AvDecision)
    (xperms : Option ExtendedPerms) : Asking (AvDecision × Option ExtendedPerms) :=
  contextStructComputeAvDepthReads p (p.typeValToStruct.length + policydbBoundsMaxdepth) scontext
    tcontext tclass avd xperms

end Decisions

section Conditionals

variable (p : Policydb)

/-- The state of the boolean a node names. -/
def condBoolStateReads (boolean : U32) : Asking U32 := do
  let entry ← Traced.read ⟨.bools, boolean⟩ (atValue p.boolValToStruct boolean)
  let name ← Traced.lift (derefPtr entry)
  let booldatum ← Traced.lift (derefPtr (symtabSearch p.pBools name))
  pure booldatum.state

/-- The loop of `cond_evaluate_expr` over a stack with its top in front. -/
def condEvaluateNodesReads : List CondExprNode → List U32 → Asking U32
  | [], stack => pure (stack.getLastD condUndefined)
  | node :: rest, stack =>
    if node.exprType = condBool then
      if stack.length = condExprMaxdepth then pure condUndefined
      else do
        let state ← condBoolStateReads p node.boolean
        condEvaluateNodesReads rest (state :: stack)
    else if node.exprType = condNot then
      match stack with
      | [] => pure condUndefined
      | a :: below => condEvaluateNodesReads rest ((if a = 0 then 1 else 0) :: below)
    else
      match stack with
      | b :: a :: below =>
        match condBinary node.exprType a b with
        | none => pure condUndefined
        | some v => condEvaluateNodesReads rest (v :: below)
      | _ => pure condUndefined

/-- `cond_evaluate_expr`. -/
def condEvaluateExprReads (expr : List CondExprNode) : Asking U32 :=
  if expr.isEmpty then pure condUndefined else condEvaluateNodesReads p expr []

end Conditionals

end Ksrc.Source

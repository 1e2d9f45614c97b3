import Ksrc.Source.Conditional
import Ksrc.Source.Sidtab

/-!
# Access decisions

Source: `security/selinux/ss/services.c` (`constraint_expr_eval`,
`type_attribute_bounds_av`, `context_struct_compute_av`, `map_decision`,
`security_compute_av`, `security_compute_xperms_decision`). Audit records are not
modelled.
-/
namespace Ksrc.Source

def cexprMaxdepth : Nat := 5

def cexprNot : U32 := 1
def cexprAnd : U32 := 2
def cexprOr : U32 := 3
def cexprAttr : U32 := 4
def cexprNames : U32 := 5

def cexprUser : U32 := 1
def cexprRole : U32 := 2
def cexprType : U32 := 4
def cexprTarget : U32 := 8
def cexprXtarget : U32 := 16
def cexprL1l2 : U32 := 32
def cexprL1h2 : U32 := 64
def cexprH1l2 : U32 := 128
def cexprH1h2 : U32 := 256
def cexprL1h1 : U32 := 512
def cexprL2h2 : U32 := 1024

def cexprEq : U32 := 1
def cexprNeq : U32 := 2
def cexprDom : U32 := 3
def cexprDomby : U32 := 4
def cexprIncomp : U32 := 5

/-- The comparison of two values; other operators are a `BUG()`. -/
def cexprCompare (op val1 val2 : U32) : Except Fault Bool :=
  if op = cexprEq then .ok (val1 == val2)
  else if op = cexprNeq then .ok (val1 != val2)
  else .error .oops

/-- `mls_ops` of `constraint_expr_eval`. -/
def cexprMls (op : U32) (l1 l2 : MlsLevel) : Except Fault Bool :=
  if op = cexprEq then .ok (mlsLevelEq l1 l2)
  else if op = cexprNeq then .ok (!mlsLevelEq l1 l2)
  else if op = cexprDom then .ok (mlsLevelDom l1 l2)
  else if op = cexprDomby then .ok (mlsLevelDom l2 l1)
  else if op = cexprIncomp then .ok (mlsLevelIncomp l2 l1)
  else .error .oops

/-- `ebitmap_get_bit(&r->dominates, value - 1)`. -/
def roleDominates (r : Option RoleDatum) (value : U32) : Except Fault Bool := do
  let role ← derefPtr r
  pure (ebitmapGetBit role.dominates (value - 1).toNat)

/-- The role case of `CEXPR_ATTR`. -/
def cexprRoles (p : Policydb) (op val1 val2 : U32) : Except Fault Bool := do
  let r1 ← atValue p.roleValToStruct val1
  let r2 ← atValue p.roleValToStruct val2
  if op = cexprDom then roleDominates r1 val2
  else if op = cexprDomby then roleDominates r2 val1
  else if op = cexprIncomp then
    if ← roleDominates r1 val2 then pure false
    else do
      let dominated ← roleDominates r2 val1
      pure (!dominated)
  else cexprCompare op val1 val2

/-- `CEXPR_ATTR` of `constraint_expr_eval`. -/
def cexprEvalAttr (p : Policydb) (scontext tcontext : Context) (e : ConstraintExpr) :
    Except Fault Bool :=
  if e.attr = cexprUser then cexprCompare e.op scontext.user tcontext.user
  else if e.attr = cexprType then cexprCompare e.op scontext.type tcontext.type
  else if e.attr = cexprRole then cexprRoles p e.op scontext.role tcontext.role
  else if e.attr = cexprL1l2 then cexprMls e.op scontext.range.low tcontext.range.low
  else if e.attr = cexprL1h2 then cexprMls e.op scontext.range.low tcontext.range.high
  else if e.attr = cexprH1l2 then cexprMls e.op scontext.range.high tcontext.range.low
  else if e.attr = cexprH1h2 then cexprMls e.op scontext.range.high tcontext.range.high
  else if e.attr = cexprL1h1 then cexprMls e.op scontext.range.low scontext.range.high
  else if e.attr = cexprL2h2 then cexprMls e.op tcontext.range.low tcontext.range.high
  else .error .oops

/-- `CEXPR_NAMES` of `constraint_expr_eval`. -/
def cexprEvalNames (scontext tcontext : Context) (xcontext : Option Context)
    (e : ConstraintExpr) : Except Fault Bool := do
  let c ← if e.attr &&& cexprTarget ≠ 0 then pure tcontext
    else if e.attr &&& cexprXtarget ≠ 0 then derefPtr xcontext
    else pure scontext
  let val1 ← if e.attr &&& cexprUser ≠ 0 then pure c.user
    else if e.attr &&& cexprRole ≠ 0 then pure c.role
    else if e.attr &&& cexprType ≠ 0 then pure c.type
    else .error .oops
  if e.op = cexprEq then pure (ebitmapGetBit e.names (val1 - 1).toNat)
  else if e.op = cexprNeq then pure (!ebitmapGetBit e.names (val1 - 1).toNat)
  else .error .oops

/-- `constraint_expr_eval`, over a stack with its top in front. -/
def constraintExprEval (p : Policydb) (scontext tcontext : Context) (xcontext : Option Context) :
    List ConstraintExpr → List Bool → Except Fault Bool
  | [], [v] => .ok v
  | [], _ => .error .oops
  | e :: rest, stack =>
    if e.exprType = cexprNot then
      match stack with
      | a :: below => constraintExprEval p scontext tcontext xcontext rest ((!a) :: below)
      | [] => .error .oops
    else if e.exprType = cexprAnd then
      match stack with
      | b :: a :: below => constraintExprEval p scontext tcontext xcontext rest ((a && b) :: below)
      | _ => .error .oops
    else if e.exprType = cexprOr then
      match stack with
      | b :: a :: below => constraintExprEval p scontext tcontext xcontext rest ((a || b) :: below)
      | _ => .error .oops
    else if e.exprType = cexprAttr then
      if stack.length = cexprMaxdepth then .ok false
      else
        match cexprEvalAttr p scontext tcontext e with
        | .error e => .error e
        | .ok v => constraintExprEval p scontext tcontext xcontext rest (v :: stack)
    else if e.exprType = cexprNames then
      if stack.length = cexprMaxdepth then .ok false
      else
        match cexprEvalNames scontext tcontext xcontext e with
        | .error e => .error e
        | .ok v => constraintExprEval p scontext tcontext xcontext rest (v :: stack)
    else .error .oops

/-- One node of `te_avtab` in the loop of `context_struct_compute_av`. -/
def computeAvNode (acc : AvDecision × Option ExtendedPerms) (node : AvtabNode) :
    AvDecision × Option ExtendedPerms :=
  let (avd, xperms) := acc
  if node.key.specified = avtabAllowed then
    ({ avd with allowed := avd.allowed ||| node.datum.u }, xperms)
  else if node.key.specified = avtabAuditallow then
    ({ avd with auditallow := avd.auditallow ||| node.datum.u }, xperms)
  else if node.key.specified = avtabAuditdeny then
    ({ avd with auditdeny := avd.auditdeny &&& node.datum.u }, xperms)
  else if node.key.specified &&& avtabXperms ≠ 0 then
    (avd, xperms.map (servicesComputeXpermsDrivers · node))
  else acc

/-- The key of a pair of types in the loops over the attributes; it has 16 bits for each. -/
def attrKey (i j : U32) (tclass specified : U16) : AvtabKey :=
  { sourceType := (i + 1).truncate 16, targetType := (j + 1).truncate 16, targetClass := tclass
    specified }

/-- The rules of one pair of types. -/
def computeAvPair (p : Policydb) (tclass : U16) (i j : U32)
    (acc : AvDecision × Option ExtendedPerms) : AvDecision × Option ExtendedPerms :=
  let avkey := attrKey i j tclass (avtabAv ||| avtabXperms)
  condComputeAv p.teCondAvtab avkey ((avtabMatches p.teAvtab avkey).foldl computeAvNode acc)

/-- The loops over the attributes of the two types. -/
def computeAvRules (p : Policydb) (tclass : U16) (sattr tattr : Ebitmap)
    (acc : AvDecision × Option ExtendedPerms) : AvDecision × Option ExtendedPerms :=
  (ebitmapPositiveBits sattr).foldl
    (fun acc i => (ebitmapPositiveBits tattr).foldl (fun acc j => computeAvPair p tclass i j acc) acc)
    acc

/-- The loop over the constraints of the class. -/
def computeAvConstraints (p : Policydb) (scontext tcontext : Context) :
    List ConstraintNode → U32 → Except Fault U32
  | [], allowed => .ok allowed
  | constraint :: rest, allowed =>
    if constraint.permissions &&& allowed ≠ 0 then
      match constraintExprEval p scontext tcontext none constraint.expr [] with
      | .error e => .error e
      | .ok holds =>
        computeAvConstraints p scontext tcontext rest
          (if holds then allowed else allowed &&& ~~~constraint.permissions)
    else computeAvConstraints p scontext tcontext rest allowed

/-- The check of `(current_role, new_role)`. -/
def computeAvRoles (p : Policydb) (scontext tcontext : Context) (tclass : U16) (allowed : U32) :
    U32 :=
  if tclass = p.processClass ∧ allowed &&& p.processTransPerms ≠ 0 ∧
      scontext.role ≠ tcontext.role then
    if p.roleAllow.any fun ra => scontext.role == ra.role && tcontext.role == ra.newRole then allowed
    else allowed &&& ~~~p.processTransPerms
  else allowed

/-- `context_struct_compute_av` up to `type_attribute_bounds_av`, of a class of the policy. -/
def computeAvUnbounded (p : Policydb) (scontext tcontext : Context) (tclass : U16)
    (acc : AvDecision × Option ExtendedPerms) :
    Except Fault (AvDecision × Option ExtendedPerms) := do
  let tclassDatum ← atValue p.classValToStruct (tclass.zeroExtend 32)
  let sattr ← atValue p.typeAttrMapArray scontext.type
  let tattr ← atValue p.typeAttrMapArray tcontext.type
  let (avd, xperms) := computeAvRules p tclass sattr tattr acc
  let tclassDatum ← derefPtr tclassDatum
  let allowed ← computeAvConstraints p scontext tcontext tclassDatum.constraints avd.allowed
  pure ({ avd with allowed := computeAvRoles p scontext tcontext tclass allowed }, xperms)

/-- `lo_scontext` and `lo_tcontext` of `type_attribute_bounds_av`, if the source is bounded. -/
def boundingContexts (p : Policydb) (scontext tcontext : Context) :
    Except Fault (Option (Context × Context)) := do
  let source ← atValue p.typeValToStruct scontext.type
  let source ← derefPtr source
  if source.bounds = 0 then pure none
  else do
    let target ← atValue p.typeValToStruct tcontext.type
    let target ← derefPtr target
    pure (some ({ scontext with type := source.bounds },
      if target.bounds ≠ 0 then { tcontext with type := target.bounds } else tcontext))

/-- `context_struct_compute_av`, with `type_attribute_bounds_av` at its end; the number
bounds the depth of their recursion, whose end is a stack overflow. -/
def contextStructComputeAvDepth (p : Policydb) : Nat → Context → Context → U16 → AvDecision →
    Option ExtendedPerms → Except Fault (AvDecision × Option ExtendedPerms)
  | 0, _, _, _, _, _ => .error .oops
  | depth + 1, scontext, tcontext, tclass, avd, xperms =>
    let cleared : AvDecision × Option ExtendedPerms :=
      ({ avd with allowed := 0, auditallow := 0, auditdeny := 0xffffffff },
        xperms.map fun _ => { len := 0, drivers := .zero })
    if tclass = 0 ∨ p.pClasses.nprim < tclass.zeroExtend 32 then .ok cleared
    else
      match computeAvUnbounded p scontext tcontext tclass cleared with
      | .error e => .error e
      | .ok (avd, xperms) =>
        -- `type_attribute_bounds_av`
        match boundingContexts p scontext tcontext with
        | .error e => .error e
        | .ok none => .ok (avd, xperms)
        | .ok (some (loScontext, loTcontext)) =>
          match contextStructComputeAvDepth p depth loScontext loTcontext tclass
              { allowed := 0, auditallow := 0, auditdeny := 0, seqno := 0, flags := 0 } none with
          | .error e => .error e
          | .ok (loAvd, _) =>
            let masked := ~~~loAvd.allowed &&& avd.allowed
            .ok ({ avd with allowed := avd.allowed &&& ~~~masked }, xperms)

/-- `context_struct_compute_av`. A chain of bounds longer than there are types repeats. -/
def contextStructComputeAv (p : Policydb) (scontext tcontext : Context) (tclass : U16)
    (avd : AvDecision) (xperms : Option ExtendedPerms) :
    Except Fault (AvDecision × Option ExtendedPerms) :=
  contextStructComputeAvDepth p (p.typeValToStruct.length + policydbBoundsMaxdepth) scontext tcontext
    tclass avd xperms

/-- `struct selinux_mapping`. -/
structure SelinuxMapping where
  value : U16
  perms : List U32
  deriving DecidableEq, Repr

/-- `struct selinux_map`; entry 0 is that of class 0. -/
structure SelinuxMap where
  mapping : List SelinuxMapping
  deriving DecidableEq, Repr

/-- `struct selinux_policy`. -/
structure SelinuxPolicy where
  sidtab : Sidtab
  policydb : Policydb
  map : SelinuxMap
  latestGranting : U32

/-- `unmap_class`. -/
def unmapClass (map : SelinuxMap) (tclass : U16) : U16 :=
  match map.mapping[tclass.toNat]? with
  | some mapping => mapping.value
  | none => tclass

/-- The bits of the kernel permissions whose policy permission `test` accepts. -/
def mapBits (perms : List U32) (test : U32 → Bool) : U32 :=
  (perms.zipIdx.filter fun perm => test perm.1).foldl
    (fun result perm => result ||| 1#32 <<< perm.2) 0

/-- `map_decision`. -/
def mapDecision (map : SelinuxMap) (tclass : U16) (avd : AvDecision) (allowUnknown : Bool) :
    AvDecision :=
  match map.mapping[tclass.toNat]? with
  | none => avd
  | some mapping =>
    let past := (List.range 32).foldl
      (fun result i => if mapping.perms.length ≤ i then result ||| 1#32 <<< i else result) 0
    { avd with
      allowed := mapBits mapping.perms fun perm =>
        avd.allowed &&& perm ≠ 0 ∨ (allowUnknown ∧ perm = 0)
      auditallow := mapBits mapping.perms fun perm => avd.auditallow &&& perm ≠ 0
      auditdeny := past ||| mapBits mapping.perms fun perm =>
        avd.auditdeny &&& perm ≠ 0 ∨ (¬ allowUnknown ∧ perm = 0) }

/-- `avd_init`. -/
def avdInit (policy : Option SelinuxPolicy) : AvDecision :=
  { allowed := 0, auditallow := 0, auditdeny := 0xffffffff
    seqno := match policy with
      | some policy => policy.latestGranting
      | none => 0
    flags := 0 }

/-- `sidtab_search`: the context of a SID, `none` if there is none at all. -/
def sidtabSearch (s : Sidtab) (sid : U32) : Except Fault (Option Context) :=
  match sidtabSearchEntry s sid with
  | none => .error .oops
  | some entry => .ok (entry.map (·.context))

/-- `security_compute_av`. The driver map is left as it is on the stack until
`context_struct_compute_av` clears it; it is 0 here. -/
def securityComputeAv (policy : Option SelinuxPolicy) (ssid tsid : U32) (origTclass : U16) :
    Except Fault (AvDecision × ExtendedPerms) := do
  let avd := avdInit policy
  let xperms : ExtendedPerms := { len := 0, drivers := .zero }
  match policy with
  | none => pure ({ avd with allowed := 0xffffffff }, xperms)
  | some policy =>
    match ← sidtabSearch policy.sidtab ssid with
    | none => pure (avd, xperms)
    | some scontext =>
      let flags := if ebitmapGetBit policy.policydb.permissiveMap scontext.type.toNat then
          avd.flags ||| avdFlagsPermissive
        else avd.flags
      let avd := { avd with flags }
      match ← sidtabSearch policy.sidtab tsid with
      | none => pure (avd, xperms)
      | some tcontext =>
        let tclass := unmapClass policy.map origTclass
        if origTclass ≠ 0 ∧ tclass = 0 then
          if policy.policydb.allowUnknown then pure ({ avd with allowed := 0xffffffff }, xperms)
          else pure (avd, xperms)
        else do
          let (avd, computed) ←
            contextStructComputeAv policy.policydb scontext tcontext tclass avd (some xperms)
          pure (mapDecision policy.map origTclass avd policy.policydb.allowUnknown,
            computed.getD xperms)

/-- The rules of one pair of types in `security_compute_xperms_decision`. -/
def computeXpermsPair (p : Policydb) (tclass : U16) (i j : U32) (xpermd : ExtendedPermsDecision) :
    ExtendedPermsDecision :=
  let avkey := attrKey i j tclass avtabXperms
  condComputeXperms p.teCondAvtab avkey
    ((avtabMatches p.teAvtab avkey).foldl servicesComputeXpermsDecision xpermd)

/-- `security_compute_xperms_decision`, into three maps the caller provides. -/
def securityComputeXpermsDecision (policy : Option SelinuxPolicy) (ssid tsid : U32)
    (origTclass : U16) (driver : U8) : Except Fault ExtendedPermsDecision := do
  let xpermd : ExtendedPermsDecision :=
    { used := 0, driver, allowed := some .zero, auditallow := some .zero, dontaudit := some .zero }
  let allow := { xpermd with allowed := some .ones }
  match policy with
  | none => pure allow
  | some policy =>
    match ← sidtabSearch policy.sidtab ssid with
    | none => pure xpermd
    | some scontext =>
      match ← sidtabSearch policy.sidtab tsid with
      | none => pure xpermd
      | some tcontext =>
        let tclass := unmapClass policy.map origTclass
        if origTclass ≠ 0 ∧ tclass = 0 then
          if policy.policydb.allowUnknown then pure allow else pure xpermd
        else if tclass = 0 ∨ policy.policydb.pClasses.nprim < tclass.zeroExtend 32 then pure xpermd
        else do
          let sattr ← atValue policy.policydb.typeAttrMapArray scontext.type
          let tattr ← atValue policy.policydb.typeAttrMapArray tcontext.type
          pure ((ebitmapPositiveBits sattr).foldl
            (fun xpermd i => (ebitmapPositiveBits tattr).foldl
              (fun xpermd j => computeXpermsPair policy.policydb tclass i j xpermd) xpermd) xpermd)

end Ksrc.Source

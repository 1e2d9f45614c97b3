import Ksrc.Source.EbitmapOperations
import Ksrc.Source.SymbolReads

/-!
# The context of a new object

Source: `security/selinux/ss/services.c` (`security_compute_sid` and its callers,
`filename_compute_type`, `compute_sid_handle_invalid_context`), `mls.c` (`mls_compute_sid`), `context.h`
(`mls_context_cpy`, `mls_context_glblub`).

What is modelled is `security_compute_sid` from the contexts of the two SIDs to the SID of the new one.
Allocations succeed, and no context has its string in the cache. `security_is_socket_class` comes from
a header that the build makes, and is a parameter.
-/
namespace Ksrc.Source

open Library

def defaultSource : U8 := 1
def defaultTarget : U8 := 2
def defaultSourceLow : U8 := 1
def defaultSourceHigh : U8 := 2
def defaultSourceLowHigh : U8 := 3
def defaultTargetLow : U8 := 4
def defaultTargetHigh : U8 := 5
def defaultTargetLowHigh : U8 := 6
def defaultGlblub : U8 := 7

/-- The callers of `security_compute_sid`. -/
inductive SidQuery where
  | securityTransitionSid (tclass : U16) (qstr : Option Name)
  | securityTransitionSidUser (tclass : U16) (objname : Option Name)
  | securityMemberSid (tclass : U16)
  | securityChangeSid (tclass : U16)
  deriving DecidableEq, Repr

namespace SidQuery

def origTclass : SidQuery → U16
  | securityTransitionSid tclass _ => tclass
  | securityTransitionSidUser tclass _ => tclass
  | securityMemberSid tclass => tclass
  | securityChangeSid tclass => tclass

def specified : SidQuery → U16
  | securityTransitionSid _ _ => avtabTransition
  | securityTransitionSidUser _ _ => avtabTransition
  | securityMemberSid _ => avtabMember
  | securityChangeSid _ => avtabChange

def objname : SidQuery → Option Name
  | securityTransitionSid _ qstr => qstr
  | securityTransitionSidUser _ objname => objname
  | securityMemberSid _ => none
  | securityChangeSid _ => none

def kern : SidQuery → Bool
  | securityTransitionSid _ _ => true
  | _ => false

end SidQuery

/-- `map_class`, 0 for a class that the kernel does not have. -/
def mapClass (map : SelinuxMap) (polValue : U16) : U16 :=
  match (map.mapping.drop 1).findIdx? fun mapping => mapping.value = polValue with
  | some i => BitVec.ofNat 16 (i + 1)
  | none => 0

/-- How a policy and the kernel's classes go together. -/
structure ClassMap where
  map : SelinuxMap
  securityIsSocketClass : U16 → Bool

namespace ClassMap

/-- `tclass` of `security_compute_sid`. -/
def tclass (m : ClassMap) (q : SidQuery) : U16 :=
  if q.kern then unmapClass m.map q.origTclass else q.origTclass

/-- `sock` of `security_compute_sid`. -/
def sock (m : ClassMap) (q : SidQuery) : Bool :=
  if q.kern then m.securityIsSocketClass q.origTclass
  else m.securityIsSocketClass (mapClass m.map q.origTclass)

end ClassMap

section Range

/-- `mls_context_cpy_low`. -/
def mlsContextCpyLow (src : Context) : MlsRange := { low := src.range.low, high := src.range.low }

/-- `mls_context_cpy_high`. -/
def mlsContextCpyHigh (src : Context) : MlsRange := { low := src.range.high, high := src.range.high }

/-- `mls_context_glblub`. -/
def mlsContextGlblub (c1 c2 : Context) : Except Fault MlsRange :=
  let r1 := c1.range
  let r2 := c2.range
  if r1.high.sens < r2.low.sens ∨ r2.high.sens < r1.low.sens then .error einval
  else .ok
    { low :=
        { sens := if r1.low.sens < r2.low.sens then r2.low.sens else r1.low.sens
          cat := (ebitmapAnd (fun _ => true) r1.low.cat r2.low.cat).2 }
      high :=
        { sens := if r1.high.sens < r2.high.sens then r1.high.sens else r2.high.sens
          cat := (ebitmapAnd (fun _ => true) r1.high.cat r2.high.cat).2 } }

/-- The switch over `default_range` in `mls_compute_sid`; `none` falls through. -/
def mlsDefaultRange (scontext tcontext : Context) (defaultRange : U8) :
    Option (Except Fault MlsRange) :=
  if defaultRange = defaultSourceLow then some (.ok (mlsContextCpyLow scontext))
  else if defaultRange = defaultSourceHigh then some (.ok (mlsContextCpyHigh scontext))
  else if defaultRange = defaultSourceLowHigh then some (.ok scontext.range)
  else if defaultRange = defaultTargetLow then some (.ok (mlsContextCpyLow tcontext))
  else if defaultRange = defaultTargetHigh then some (.ok (mlsContextCpyHigh tcontext))
  else if defaultRange = defaultTargetLowHigh then some (.ok tcontext.range)
  else if defaultRange = defaultGlblub then some (mlsContextGlblub scontext tcontext)
  else none

end Range

section Contexts

variable (p : Policydb) (scontext tcontext : Context)

/-- `cladatum`: the slot is read for a class of the policy, and may be empty. -/
def cladatumReads (tclass : U16) : Asking (Option ClassDatum) :=
  if tclass = 0 ∨ p.pClasses.nprim < tclass.zeroExtend 32 then pure none
  else Traced.read ⟨.classes, tclass.zeroExtend 32⟩
    (atValue p.classValToStruct (tclass.zeroExtend 32))

/-- The user of the new context. -/
def newUser (specified : U16) (cladatum : Option ClassDatum) : U32 :=
  if specified = avtabMember then tcontext.user
  else if cladatum.any (fun c => c.defaultUser = defaultTarget) then tcontext.user
  else scontext.user

/-- The role of the new context, before a role transition. -/
def newRole (tclass : U16) (sock : Bool) (cladatum : Option ClassDatum) : U32 :=
  if cladatum.any (fun c => c.defaultRole = defaultSource) then scontext.role
  else if cladatum.any (fun c => c.defaultRole = defaultTarget) then tcontext.role
  else if tclass = p.processClass ∨ sock then scontext.role
  else objectRVal

/-- The type of the new context, before the rules. -/
def newType (tclass : U16) (sock : Bool) (cladatum : Option ClassDatum) : U32 :=
  if cladatum.any (fun c => c.defaultType = defaultSource) then scontext.type
  else if cladatum.any (fun c => c.defaultType = defaultTarget) then tcontext.type
  else if tclass = p.processClass ∨ sock then scontext.type
  else tcontext.type

/-- `avkey` of `security_compute_sid`. -/
def sidKey (tclass specified : U16) : AvtabKey :=
  { sourceType := scontext.type.truncate 16, targetType := tcontext.type.truncate 16
    targetClass := tclass, specified }

/-- The type rule: a permanent one, or the first conditional one that is enabled. -/
def typeRule (tclass specified : U16) : Option AvtabNode :=
  match avtabSearchNode p.teAvtab (sidKey scontext tcontext tclass specified) with
  | some (node, _) => some node
  | none =>
    (avtabMatches p.teCondAvtab (sidKey scontext tcontext tclass specified)).find? fun node =>
      node.key.specified &&& avtabEnabled ≠ 0

/-- `filename_compute_type`: the type of the rule, if there is one. -/
def filenameComputeType (tclass : U16) (objname : Name) : Option U32 :=
  if ebitmapGetBit p.filenameTransTtypes tcontext.type.toNat then
    match policydbFilenametrSearch p { ttype := tcontext.type, tclass, name := objname } with
    | none => none
    | some data =>
      (data.find? fun datum => ebitmapGetBit datum.stypes (scontext.type - 1).toNat).map
        FilenameTransDatum.otype
  else none

/-- The type that a rule gives, one about a file name before others. -/
def ruleType (tclass specified : U16) (objname : Option Name) : Option U32 :=
  match objname.bind (filenameComputeType p scontext tcontext tclass) with
  | some otype => some otype
  | none => (typeRule p scontext tcontext tclass specified).map (·.datum.u)

/-- `policydb_roletr_search` of a role transition. -/
def policydbRoletrSearch (role type tclass : U32) : Option RoleTransDatum :=
  hashtabSearch roletrKeyParams p.roleTr { role, type, tclass }

/-- The role that a role transition gives. -/
def ruleRole (tclass specified : U16) : Option U32 :=
  if specified &&& avtabTransition ≠ 0 then
    (policydbRoletrSearch p scontext.role tcontext.type (tclass.zeroExtend 32)).map (·.newRole)
  else none

/-- `policydb_rangetr_search`. -/
def policydbRangetrSearch (tclass : U16) : Option MlsRange :=
  hashtabSearch rangetrKeyParams p.rangeTr
    { sourceType := scontext.type, targetType := tcontext.type
      targetClass := tclass.zeroExtend 32 }

/-- The MLS attributes of `AVTAB_CHANGE`. -/
def mlsChangeRange (tclass : U16) (sock : Bool) : MlsRange :=
  if tclass = p.processClass ∨ sock then scontext.range else mlsContextCpyLow scontext

/-- `mls_compute_sid`. -/
def mlsComputeSidReads (tclass specified : U16) (sock : Bool) : Asking MlsRange :=
  if ¬ p.mlsEnabled then pure mlsRangeZero
  else if specified = avtabTransition then
    match policydbRangetrSearch p scontext tcontext tclass with
    | some r => pure r
    | none => do
      let cladatum ← cladatumReads p tclass
      match cladatum.bind fun c => mlsDefaultRange scontext tcontext c.defaultRange with
      | some r => Traced.lift r
      | none => pure (mlsChangeRange p scontext tclass sock)
  else if specified = avtabChange then pure (mlsChangeRange p scontext tclass sock)
  else if specified = avtabMember then pure (mlsContextCpyLow scontext)
  else Traced.lift (.error einval)

/-- `compute_sid_handle_invalid_context`. -/
def computeSidHandleInvalidContextReads (tclass : U16) (newcontext : Context) (enforcing : Bool) :
    Asking Unit := do
  let _ ← contextStructToStringReads p scontext
  let _ ← contextStructToStringReads p tcontext
  let _ ← contextStructToStringReads p newcontext
  let _ ← Traced.read ⟨.classNames, tclass.zeroExtend 32⟩
    (atValue p.symValToName.classes (tclass.zeroExtend 32))
  if enforcing then Traced.lift (.error (.err .EACCES)) else pure ()

/-- `security_compute_sid`: the context whose SID it gives. -/
def securityComputeSidReads (m : ClassMap) (q : SidQuery) (enforcing : Bool) : Asking Context := do
  let tclass := m.tclass q
  let sock := m.sock q
  let cladatum ← cladatumReads p tclass
  let user := newUser scontext tcontext q.specified cladatum
  let role := (ruleRole p scontext tcontext tclass q.specified).getD
    (newRole p scontext tcontext tclass sock cladatum)
  let type := (ruleType p scontext tcontext tclass q.specified q.objname).getD
    (newType p scontext tcontext tclass sock cladatum)
  let range ← mlsComputeSidReads p scontext tcontext tclass q.specified sock
  let newcontext : Context := { user, role, type, range, str := none }
  if ← policydbContextIsvalidReads p newcontext then pure newcontext
  else do
    computeSidHandleInvalidContextReads p scontext tcontext tclass newcontext enforcing
    pure newcontext

end Contexts

end Ksrc.Source

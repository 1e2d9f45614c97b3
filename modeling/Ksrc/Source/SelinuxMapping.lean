import Ksrc.Source.ContextString
import Ksrc.Source.Services

/-!
# Permissions by name

Source: `security/selinux/ss/services.c` (`selinux_set_mapping`, `dump_masked_av_helper`,
`security_dump_masked_av`), `security/selinux/include/security.h` (`security_class_mapping`).
Messages of the log are not modelled.
-/
namespace Ksrc.Source

/-- `struct security_class_mapping`: a class of the kernel with its permissions, up to the `NULL`. -/
structure SecurityClassMapping where
  name : Name
  perms : List Name
  deriving DecidableEq, Repr

section Mapping

variable (pol : Policydb)

/-- The loop over the permissions of a class in `selinux_set_mapping`. -/
def setMappingPerms (value : U16) : List Name → Except Fault (List U32)
  | [] => .ok []
  | name :: rest =>
    -- an empty permission string skips ahead; the record is zeroed
    if name = [] then
      match setMappingPerms value rest with
      | .error e => .error e
      | .ok perms => .ok (0 :: perms)
    else
      match stringToAvPerm pol value name with
      | .error e => .error e
      | .ok perm =>
        if perm = 0 ∧ pol.rejectUnknown then .error einval
        else
          match setMappingPerms value rest with
          | .error e => .error e
          | .ok perms => .ok (perm :: perms)

/-- One class in the loop of `selinux_set_mapping`. -/
def setMappingClass (pIn : SecurityClassMapping) : Except Fault SelinuxMapping :=
  if pIn.name = [] then .ok { value := 0, perms := [] }
  else
    let value := stringToSecurityClass pol pIn.name
    if value = 0 then
      if pol.rejectUnknown then .error einval else .ok { value := 0, perms := [] }
    else
      match setMappingPerms pol value pIn.perms with
      | .error e => .error e
      | .ok perms => .ok { value, perms }

/-- The loop of `selinux_set_mapping`. -/
def setMappingClasses : List SecurityClassMapping → Except Fault (List SelinuxMapping)
  | [] => .ok []
  | pIn :: rest =>
    match setMappingClass pol pIn with
    | .error e => .error e
    | .ok pOut =>
      match setMappingClasses rest with
      | .error e => .error e
      | .ok mapping => .ok (pOut :: mapping)

/-- `selinux_set_mapping`. -/
def selinuxSetMapping (map : List SecurityClassMapping) : Except Fault SelinuxMap :=
  match setMappingClasses pol map with
  | .error e => .error e
  | .ok mapping => .ok { mapping := { value := 0, perms := [] } :: mapping }

end Mapping

section Masked

/-- `dump_masked_av_helper`. -/
def dumpMaskedAvHelper (k : Name) (pdatum : PermDatum) (permissionNames : List (Option Name)) :
    Except Fault (List (Option Name)) :=
  -- `BUG_ON(pdatum->value < 1 || pdatum->value > 32)`
  if pdatum.value < 1 ∨ 32 < pdatum.value then .error .oops
  else .ok (permissionNames.set (pdatum.value - 1).toNat (some k))

/-- `permission_names` of `security_dump_masked_av`. The array on its stack is not initialised:
what no permission of the class fills is `none` here. -/
def dumpPermissionNames (tclassDat : ClassDatum) : Except Fault (List (Option Name)) :=
  let permissionNames := List.replicate 32 none
  match tclassDat.comdatum with
  | none => hashtabMap dumpMaskedAvHelper tclassDat.permissions.table.entries permissionNames
  | some commonDat =>
    match hashtabMap dumpMaskedAvHelper commonDat.permissions.table.entries permissionNames with
    | .error e => .error e
    | .ok permissionNames =>
      hashtabMap dumpMaskedAvHelper tclassDat.permissions.table.entries permissionNames

/-- What `security_dump_masked_av` puts into its audit record. -/
structure MaskedAv where
  scontext : List U8
  tcontext : List U8
  tclass : Option Name
  perms : List (Option Name)
  deriving DecidableEq, Repr

/-- `security_dump_masked_av`; `none` where it leaves without a record. -/
def securityDumpMaskedAv (policydb : Policydb) (scontext tcontext : Context) (tclass : U16)
    (permissions : U32) : Except Fault (Option MaskedAv) :=
  if permissions = 0 then .ok none
  else do
    let tclassName ← atValue policydb.symValToName.classes (tclass.zeroExtend 32)
    let tclassDat ← atValue policydb.classValToStruct (tclass.zeroExtend 32)
    let tclassDat ← derefPtr tclassDat
    let permissionNames ← dumpPermissionNames tclassDat
    let (scontextName, _) ← contextStructToString policydb scontext
    let (tcontextName, _) ← contextStructToString policydb tcontext
    let indices := (List.range 32).filter fun index => permissions.getLsbD index
    pure (some
      { scontext := scontextName, tcontext := tcontextName, tclass := tclassName
        perms := indices.map fun index => permissionNames.getD index none })

end Masked

end Ksrc.Source

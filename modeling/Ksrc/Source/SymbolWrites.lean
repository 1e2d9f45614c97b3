import Ksrc.Source.PolicydbWrite

/-!
# Writing the symbol tables and the policy database

Source: `security/selinux/ss/policydb.c` (`write_f` and `policydb_write`), `conditional.c`
(`cond_write_bool`).
-/
namespace Ksrc.Source

open Library

section Symbols

/-- `perm_write`. -/
def permWrite (e : Name × PermDatum) : PolicyWriter :=
  ByteWriter.seq [putCount e.1.length, putU32 e.2.value, putStr e.1]

/-- `common_write`. -/
def commonWrite (e : Name × CommonDatum) : PolicyWriter :=
  ByteWriter.seq [putCount e.1.length, putU32 e.2.value, putU32 e.2.permissions.nprim,
    putCount e.2.permissions.table.nel, putStr e.1, ByteWriter.each permWrite e.2.permissions.table.entries]

/-- The name of the common in `class_write`, and its length. -/
def comkeyLength (comkey : Option Name) : Nat :=
  match comkey with
  | none => 0
  | some comkey => comkey.length

def comkeyWrite (comkey : Option Name) : PolicyWriter :=
  match comkey with
  | none => ByteWriter.skip
  | some comkey => putStr comkey

/-- The defaults in `class_write`. -/
def classWriteDefaults (vers : U32) (c : ClassDatum) : PolicyWriter :=
  if policydbVersionNewObjectDefaults ≤ vers then
    ByteWriter.seq [putU32 (c.defaultUser.zeroExtend 32), putU32 (c.defaultRole.zeroExtend 32),
      putU32 (c.defaultRange.zeroExtend 32)]
  else ByteWriter.skip

def classWriteDefaultType (vers : U32) (c : ClassDatum) : PolicyWriter :=
  if policydbVersionDefaultType ≤ vers then putU32 (c.defaultType.zeroExtend 32) else ByteWriter.skip

/-- `class_write`. -/
def classWrite (vers : U32) (e : Name × ClassDatum) : PolicyWriter :=
  ByteWriter.seq [putCount e.1.length, putCount (comkeyLength e.2.comkey), putU32 e.2.value,
    putU32 e.2.permissions.nprim, putCount e.2.permissions.table.nel, putCount e.2.constraints.length,
    putStr e.1, comkeyWrite e.2.comkey, ByteWriter.each permWrite e.2.permissions.table.entries,
    writeConsHelper vers e.2.constraints, putCount e.2.validatetrans.length,
    writeConsHelper vers e.2.validatetrans, classWriteDefaults vers e.2, classWriteDefaultType vers e.2]

/-- The bounds of a role, type or user, in versions that have them. -/
def boundsWrite (vers bounds : U32) : PolicyWriter :=
  if policydbVersionBoundary ≤ vers then putU32 bounds else ByteWriter.skip

/-- `role_write`. -/
def roleWrite (vers : U32) (e : Name × RoleDatum) : PolicyWriter :=
  ByteWriter.seq [putCount e.1.length, putU32 e.2.value, boundsWrite vers e.2.bounds, putStr e.1,
    ebitmapWrite e.2.dominates, ebitmapWrite e.2.types]

/-- The properties of a type in `type_write`. -/
def typeProperties (vers : U32) (t : TypeDatum) : U32 :=
  if policydbVersionBoundary ≤ vers then
    (if t.primary ≠ 0 then typedatumPropertyPrimary else 0) |||
      (if t.isAttribute ≠ 0 then typedatumPropertyAttribute else 0)
  else t.primary.zeroExtend 32

/-- `type_write`. -/
def typeWrite (vers : U32) (e : Name × TypeDatum) : PolicyWriter :=
  ByteWriter.seq [putCount e.1.length, putU32 e.2.value, putU32 (typeProperties vers e.2),
    boundsWrite vers e.2.bounds, putStr e.1]

/-- `user_write`. -/
def userWrite (vers : U32) (e : Name × UserDatum) : PolicyWriter :=
  ByteWriter.seq [putCount e.1.length, putU32 e.2.value, boundsWrite vers e.2.bounds, putStr e.1,
    ebitmapWrite e.2.roles, mlsWriteRangeHelper e.2.range, mlsLevelWrite e.2.dfltlevel]

/-- `cond_write_bool`. -/
def condWriteBool (e : Name × CondBoolDatum) : PolicyWriter :=
  ByteWriter.seq [putU32 e.2.value, putU32 e.2.state, putCount e.1.length, putStr e.1]

/-- `sens_write`. -/
def sensWrite (e : Name × LevelDatum) : PolicyWriter :=
  ByteWriter.seq [putCount e.1.length, putU32 (e.2.isalias.zeroExtend 32), putStr e.1, mlsLevelWrite e.2.level]

/-- `cat_write`. -/
def catWrite (e : Name × CatDatum) : PolicyWriter :=
  ByteWriter.seq [putCount e.1.length, putU32 e.2.value, putU32 (e.2.isalias.zeroExtend 32), putStr e.1]

/-- One symbol table in the loop of `policydb_write`. -/
def symtabWrite {δ : Type} (write : Name × δ → PolicyWriter) (s : Symtab δ) : PolicyWriter :=
  ByteWriter.seq [putU32 s.nprim, putCount s.table.nel, ByteWriter.each write s.table.entries]

/-- The loop over the symbol tables in `policydb_write`. -/
def symtabsWrite (symNum : Nat) (p : Policydb) : PolicyWriter :=
  ByteWriter.seq ([symtabWrite commonWrite p.pCommons, symtabWrite (classWrite p.policyvers) p.pClasses,
    symtabWrite (roleWrite p.policyvers) p.pRoles, symtabWrite (typeWrite p.policyvers) p.pTypes,
    symtabWrite (userWrite p.policyvers) p.pUsers, symtabWrite condWriteBool p.pBools,
    symtabWrite sensWrite p.pLevels, symtabWrite catWrite p.pCats].take symNum)

end Symbols

section Image

/-- The configuration word of `policydb_write`. -/
def policydbConfig (p : Policydb) : U32 :=
  (if p.mlsEnabled then policydbConfigMls else 0) ||| (if p.rejectUnknown then rejectUnknownFlag else 0) |||
    (if p.allowUnknown then allowUnknownFlag else 0)

/-- What `policydb_write` writes before the symbol tables. -/
def policydbWriteHeader (p : Policydb) (info : PolicydbCompatInfo) : PolicyWriter :=
  ByteWriter.seq [putU32 policydbMagic, putCount policydbString.length, putStr policydbString,
    putU32 p.policyvers, putU32 (policydbConfig p), putCount info.symNum, putCount info.oconNum,
    if policydbVersionPolcap ≤ p.policyvers then ebitmapWrite p.policycaps else ByteWriter.skip,
    if policydbVersionPermissive ≤ p.policyvers then ebitmapWrite p.permissiveMap else ByteWriter.skip]

/-- One map in the last loop of `policydb_write`. -/
def typeAttrMapWrite (p : Policydb) (i : Nat) : PolicyWriter :=
  match p.typeAttrMapArray[i]? with
  | none => ByteWriter.fail .oops
  | some e => ebitmapWrite e

/-- `policydb_write`. -/
def policydbWrite (p : Policydb) : PolicyWriter :=
  if p.policyvers < policydbVersionAvtab then ByteWriter.fail einval
  else
    match policydbLookupCompat p.policyvers with
    | none => ByteWriter.fail einval
    | some info =>
      ByteWriter.seq [policydbWriteHeader p info, symtabsWrite info.symNum p, avtabWrite p.teAvtab, condWriteList p,
        roleTransWrite p, roleAllowWrite p.roleAllow, filenameTransWrite p, ocontextWrite p info, genfsWrite p,
        rangeWrite p, ByteWriter.each (typeAttrMapWrite p) (List.range p.pTypes.nprim.toNat)]

end Image

end Ksrc.Source

import Ksrc.Source.EbitmapFile
import Ksrc.Source.Policydb
import Ksrc.Source.Services

/-!
# Reading a policy database

Source: `security/selinux/ss/policydb.c` (`policydb_read` and what it calls), `avtab.c`
(`avtab_read`), `conditional.c` (`cond_read_bool`, `cond_read_list`).

The part of a symbol's read function before `symtab_insert` is a reader of its key and
datum. The index functions and the bounds checks run on the tables as read.
-/
namespace Ksrc.Source

open Library

/-- `struct policydb_compat_info`. -/
structure PolicydbCompatInfo where
  version : U32
  symNum : Nat
  oconNum : Nat
  deriving DecidableEq, Repr

/-- `SYM_NUM` and `OCON_NUM`. -/
def symNum : Nat := 8
def oconNum : Nat := 9

def policydbCompat : List PolicydbCompatInfo :=
  [⟨policydbVersionBase, symNum - 3, oconNum - 3⟩, ⟨policydbVersionBool, symNum - 2, oconNum - 3⟩,
    ⟨policydbVersionIpv6, symNum - 2, oconNum - 2⟩,
    ⟨policydbVersionNlclass, symNum - 2, oconNum - 2⟩, ⟨policydbVersionMls, symNum, oconNum - 2⟩,
    ⟨policydbVersionAvtab, symNum, oconNum - 2⟩, ⟨policydbVersionRangetrans, symNum, oconNum - 2⟩,
    ⟨policydbVersionPolcap, symNum, oconNum - 2⟩, ⟨policydbVersionPermissive, symNum, oconNum - 2⟩,
    ⟨policydbVersionBoundary, symNum, oconNum - 2⟩,
    ⟨policydbVersionFilenameTrans, symNum, oconNum - 2⟩,
    ⟨policydbVersionRoletrans, symNum, oconNum - 2⟩,
    ⟨policydbVersionNewObjectDefaults, symNum, oconNum - 2⟩,
    ⟨policydbVersionDefaultType, symNum, oconNum - 2⟩,
    ⟨policydbVersionConstraintNames, symNum, oconNum - 2⟩,
    ⟨policydbVersionXpermsIoctl, symNum, oconNum - 2⟩, ⟨policydbVersionInfiniband, symNum, oconNum⟩,
    ⟨policydbVersionGlblub, symNum, oconNum⟩, ⟨policydbVersionCompFtrans, symNum, oconNum⟩]

/-- `policydb_lookup_compat`. -/
def policydbLookupCompat (version : U32) : Option PolicydbCompatInfo :=
  policydbCompat.find? (·.version == version)

/-- `POLICYDB_MAGIC` and `POLICYDB_STRING`. -/
def policydbMagic : U32 := 0xf97cff8c
def policydbString : Name := cstr ['S', 'E', ' ', 'L', 'i', 'n', 'u', 'x']

def policydbConfigMls : U32 := 1
def rejectUnknownFlag : U32 := 2
def allowUnknownFlag : U32 := 4

section Symbols

/-- `perm_read` before its insertion. -/
def permReadDatum : PolicyReader (Name × PermDatum) := do
  let len ← nextU32
  let value ← nextU32
  let key ← strRead len
  pure (key, { value })

/-- `perm_read`. -/
def permRead (s : Symtab PermDatum) : PolicyReader (Symtab PermDatum) := do
  let (key, perdatum) ← permReadDatum
  ByteReader.lift (symtabInsert s key perdatum)

/-- `common_read` before its insertion. -/
def commonReadDatum : PolicyReader (Name × CommonDatum) := do
  let len ← nextU32
  let value ← nextU32
  let nprim ← nextU32
  let nel ← nextU32
  let permissions ← ByteReader.lift (symtabInit nel)
  let key ← strRead len
  let permissions ← ByteReader.times permRead nel.toNat { permissions with nprim }
  pure (key, { value, permissions })

/-- `type_set_read`. -/
def typeSetRead : PolicyReader TypeSet := do
  let types ← ebitmapRead
  let negset ← ebitmapRead
  let flags ← nextU32
  pure { types, negset, flags }

/-- The depth after an expression of `read_cons_helper`, if its checks let it through. -/
def consDepth (allowxtarget : Bool) (exprType attr : U32) (depth : Int) : Except Fault Int :=
  if exprType = cexprNot then if depth < 0 then .error einval else .ok depth
  else if exprType = cexprAnd ∨ exprType = cexprOr then
    if depth < 1 then .error einval else .ok (depth - 1)
  else if exprType = cexprAttr then
    if depth = cexprMaxdepth - 1 then .error einval else .ok (depth + 1)
  else if exprType = cexprNames then
    if ¬ allowxtarget ∧ attr &&& cexprXtarget ≠ 0 then .error einval
    else if depth = cexprMaxdepth - 1 then .error einval
    else .ok (depth + 1)
  else .error einval

/-- One expression in the inner loop of `read_cons_helper`. -/
def readConsExpr (vers : U32) (allowxtarget : Bool) (depth : Int) :
    PolicyReader (Int × ConstraintExpr) := do
  let exprType ← nextU32
  let attr ← nextU32
  let op ← nextU32
  let depth ← ByteReader.lift (consDepth allowxtarget exprType attr depth)
  if exprType = cexprNames then do
    let names ← ebitmapRead
    if policydbVersionConstraintNames ≤ vers then do
      let typeNames ← typeSetRead
      pure (depth, { exprType, attr, op, names, typeNames := some typeNames })
    else pure (depth, { exprType, attr, op, names, typeNames := none })
  else pure (depth, { exprType, attr, op, names := ebitmapInit, typeNames := none })

/-- The inner loop of `read_cons_helper`. -/
def readConsExprs (vers : U32) (allowxtarget : Bool) :
    Nat → Int → PolicyReader (Int × List ConstraintExpr)
  | 0, depth => pure (depth, [])
  | nexpr + 1, depth => do
    let (depth, e) ← readConsExpr vers allowxtarget depth
    let (depth, rest) ← readConsExprs vers allowxtarget nexpr depth
    pure (depth, e :: rest)

/-- One constraint of `read_cons_helper`. -/
def readConsNode (vers : U32) (allowxtarget : Bool) : PolicyReader ConstraintNode := do
  let permissions ← nextU32
  let nexpr ← nextU32
  let (depth, expr) ← readConsExprs vers allowxtarget nexpr.toNat (-1)
  ByteReader.require einval (depth = 0)
  pure { permissions, expr }

/-- `read_cons_helper`. -/
def readConsHelper (vers : U32) (ncons : U32) (allowxtarget : Bool) :
    PolicyReader (List ConstraintNode) :=
  ByteReader.several (readConsNode vers allowxtarget) ncons.toNat

/-- The common of a class by its name. -/
def classReadCommon (pCommons : Symtab CommonDatum) (len2 : U32) :
    PolicyReader (Option Name × Option CommonDatum) :=
  if len2 = 0 then pure (none, none)
  else do
    let comkey ← strRead len2
    match symtabSearch pCommons comkey with
    | none => ByteReader.fail einval
    | some comdatum => pure (some comkey, some comdatum)

/-- The validatetrans rules of `class_read`. -/
def classReadValidatetrans (vers : U32) : PolicyReader (List ConstraintNode) :=
  if policydbVersionValidatetrans ≤ vers then do
    let ncons ← nextU32
    readConsHelper vers ncons true
  else pure []

/-- The defaults for user, role and range in `class_read`, cut to characters. -/
def classReadDefaults (vers : U32) : PolicyReader (U8 × U8 × U8) :=
  if policydbVersionNewObjectDefaults ≤ vers then do
    let user ← nextU32
    let role ← nextU32
    let range ← nextU32
    pure (user.truncate 8, role.truncate 8, range.truncate 8)
  else pure (0, 0, 0)

/-- The default for the type in `class_read`. -/
def classReadDefaultType (vers : U32) : PolicyReader U8 :=
  if policydbVersionDefaultType ≤ vers then do
    let type ← nextU32
    pure (type.truncate 8)
  else pure 0

/-- `class_read` before its insertion. -/
def classReadDatum (vers : U32) (pCommons : Symtab CommonDatum) :
    PolicyReader (Name × ClassDatum) := do
  let len ← nextU32
  let len2 ← nextU32
  let value ← nextU32
  let nprim ← nextU32
  let nel ← nextU32
  let ncons ← nextU32
  let permissions ← ByteReader.lift (symtabInit nel)
  let key ← strRead len
  let (comkey, comdatum) ← classReadCommon pCommons len2
  let permissions ← ByteReader.times permRead nel.toNat { permissions with nprim }
  let constraints ← readConsHelper vers ncons false
  let validatetrans ← classReadValidatetrans vers
  let (defaultUser, defaultRole, defaultRange) ← classReadDefaults vers
  let defaultType ← classReadDefaultType vers
  pure (key, { value, comkey, comdatum, permissions, constraints, validatetrans, defaultUser,
               defaultRole, defaultType, defaultRange })

/-- The bounds of a role, type or user, in policies that have them. -/
def boundsRead (vers : U32) : PolicyReader U32 :=
  if policydbVersionBoundary ≤ vers then nextU32 else pure 0

/-- `role_read` before its insertion. -/
def roleReadDatum (vers : U32) : PolicyReader (Name × RoleDatum) := do
  let len ← nextU32
  let value ← nextU32
  let bounds ← boundsRead vers
  let key ← strRead len
  let dominates ← ebitmapRead
  let types ← ebitmapRead
  pure (key, { value, bounds, dominates, types })

/-- `role_read`; `object_r` is there already. -/
def roleRead (vers : U32) (s : Symtab RoleDatum) : PolicyReader (Symtab RoleDatum) := do
  let (key, role) ← roleReadDatum vers
  if key = objectR then do
    ByteReader.require einval (role.value = objectRVal)
    pure s
  else ByteReader.lift (symtabInsert s key role)

def typedatumPropertyPrimary : U32 := 0x0001
def typedatumPropertyAttribute : U32 := 0x0002

/-- `type_read` before its insertion. -/
def typeReadDatum (vers : U32) : PolicyReader (Name × TypeDatum) := do
  let len ← nextU32
  let value ← nextU32
  let prop ← nextU32
  let bounds ← boundsRead vers
  let key ← strRead len
  if policydbVersionBoundary ≤ vers then
    pure (key, { value, bounds
                 primary := if prop &&& typedatumPropertyPrimary ≠ 0 then 1 else 0
                 isAttribute := if prop &&& typedatumPropertyAttribute ≠ 0 then 1 else 0 })
  else pure (key, { value, bounds, primary := prop.truncate 8, isAttribute := 0 })

/-- `mls_read_level`. -/
def mlsReadLevel : PolicyReader MlsLevel := do
  let sens ← nextU32
  let cat ← ebitmapRead
  pure { sens, cat }

/-- `mls_read_range_helper`. Without items `buf[0]` still holds their number. -/
def mlsReadRangeHelper : PolicyReader MlsRange := do
  let items ← nextU32
  ByteReader.require einval (items ≤ 2)
  let buf ← ByteReader.several nextU32 items.toNat
  let lowSens := buf.headD items
  let lowCat ← ebitmapRead
  if 1 < items then do
    let highCat ← ebitmapRead
    pure { low := ⟨lowSens, lowCat⟩, high := ⟨buf.getD 1 0, highCat⟩ }
  else pure { low := ⟨lowSens, lowCat⟩, high := ⟨lowSens, lowCat⟩ }

/-- A level or range that is zeroed memory. -/
def mlsLevelZero : MlsLevel := { sens := 0, cat := ebitmapInit }
def mlsRangeZero : MlsRange := { low := mlsLevelZero, high := mlsLevelZero }

/-- The range and default level of a user, in policies that have them. -/
def userReadMls (vers : U32) : PolicyReader (MlsRange × MlsLevel) :=
  if policydbVersionMls ≤ vers then do
    let range ← mlsReadRangeHelper
    let dfltlevel ← mlsReadLevel
    pure (range, dfltlevel)
  else pure (mlsRangeZero, mlsLevelZero)

/-- `user_read` before its insertion. -/
def userReadDatum (vers : U32) : PolicyReader (Name × UserDatum) := do
  let len ← nextU32
  let value ← nextU32
  let bounds ← boundsRead vers
  let key ← strRead len
  let roles ← ebitmapRead
  let (range, dfltlevel) ← userReadMls vers
  pure (key, { value, bounds, roles, range, dfltlevel })

/-- `cond_read_bool` before its insertion. -/
def condReadBoolDatum : PolicyReader (Name × CondBoolDatum) := do
  let value ← nextU32
  let state ← nextU32
  let len ← nextU32
  ByteReader.require einval (state = 0 ∨ state = 1)
  let key ← strRead len
  pure (key, { value, state })

/-- `sens_read` before its insertion. -/
def sensReadDatum : PolicyReader (Name × LevelDatum) := do
  let len ← nextU32
  let isalias ← nextU32
  let key ← strRead len
  let level ← mlsReadLevel
  pure (key, { level, isalias := isalias.truncate 8 })

/-- `cat_read` before its insertion. -/
def catReadDatum : PolicyReader (Name × CatDatum) := do
  let len ← nextU32
  let value ← nextU32
  let isalias ← nextU32
  let key ← strRead len
  pure (key, { value, isalias := isalias.truncate 8 })

variable {δ : Type}

/-- A read function that ends in `symtab_insert`. -/
def symRead (datum : PolicyReader (Name × δ)) (s : Symtab δ) : PolicyReader (Symtab δ) := do
  let (key, d) ← datum
  ByteReader.lift (symtabInsert s key d)

/-- One symbol table in the loop of `policydb_read`; `init` is what is done to the fresh
table. -/
def symtabRead (init : Symtab δ → Except Fault (Symtab δ))
    (readf : Symtab δ → PolicyReader (Symtab δ)) : PolicyReader (Symtab δ) := do
  let nprim ← nextU32
  let nel ← nextU32
  let s ← ByteReader.lift (symtabInit nel)
  let s ← ByteReader.lift (init s)
  let s ← ByteReader.times readf nel.toNat s
  pure { s with nprim }

/-- `roles_init`. -/
def rolesInit (s : Symtab RoleDatum) : Except Fault (Symtab RoleDatum) :=
  let nprim := s.nprim + 1
  if nprim ≠ objectRVal then .error einval
  else symtabInsert { s with nprim } objectR
    { value := nprim, bounds := 0, dominates := ebitmapInit, types := ebitmapInit }

/-- The loop over the symbol tables in `policydb_read`; the table a version lacks stays
zeroed. -/
def symtabsRead (symNum : Nat) (p : Policydb) : PolicyReader Policydb := do
  let pCommons ← symtabRead .ok (symRead commonReadDatum)
  let pClasses ← symtabRead .ok (symRead (classReadDatum p.policyvers pCommons))
  let pRoles ← symtabRead rolesInit (roleRead p.policyvers)
  let pTypes ← symtabRead .ok (symRead (typeReadDatum p.policyvers))
  let pUsers ← symtabRead .ok (symRead (userReadDatum p.policyvers))
  let pBools ← (if 5 < symNum then symtabRead .ok (symRead condReadBoolDatum) else pure p.pBools)
  let pLevels ← (if 6 < symNum then symtabRead .ok (symRead sensReadDatum) else pure p.pLevels)
  let pCats ← (if 7 < symNum then symtabRead .ok (symRead catReadDatum) else pure p.pCats)
  pure { p with pCommons, pClasses, pRoles, pTypes, pUsers, pBools, pLevels, pCats }

end Symbols

section Rules

variable {σ : Type}

/-- The loop over `spec_order` of the old format, with the words of the entry and the
index of the next one. -/
def avtabReadSpecs (insertf : AvtabKey → AvtabDatum → σ → Except Fault σ) (key : AvtabKey)
    (val : U32) (buf : List U32) : List U16 → Nat → σ → Except Fault (Nat × σ)
  | [], items, st => .ok (items, st)
  | spec :: rest, items, st =>
    if val &&& spec.zeroExtend 32 ≠ 0 then
      let enabled := if val &&& avtabEnabledOld ≠ 0 then avtabEnabled else 0
      match insertf { key with specified := spec ||| enabled } (.data (buf.getD items 0)) st with
      | .error e => .error e
      | .ok st => avtabReadSpecs insertf key val buf rest (items + 1) st
    else avtabReadSpecs insertf key val buf rest items st

/-- The checks of an entry of the old format and its insertions. Words past the end of
the entry are whatever the stack holds, but then the number of items is wrong. -/
def avtabReadOldEntry (insertf : AvtabKey → AvtabDatum → σ → Except Fault σ) (buf : List U32)
    (st : σ) : Except Fault σ :=
  let source := buf.getD 0 0
  let target := buf.getD 1 0
  let cls := buf.getD 2 0
  let val := buf.getD 3 0
  if 0xffff < source ∨ 0xffff < target ∨ 0xffff < cls then .error einval
  else if val &&& (avtabAv ||| avtabType).zeroExtend 32 = 0 then .error einval
  else if val &&& avtabAv.zeroExtend 32 ≠ 0 ∧ val &&& avtabType.zeroExtend 32 ≠ 0 then .error einval
  else if val &&& avtabXperms.zeroExtend 32 ≠ 0 then .error einval
  else
    let key : AvtabKey :=
      { sourceType := source.truncate 16, targetType := target.truncate 16
        targetClass := cls.truncate 16, specified := 0 }
    match avtabReadSpecs insertf key val buf specOrder 4 st with
    | .error e => .error e
    | .ok (items, st) => if items = buf.length then .ok st else .error einval

/-- `avtab_read_item` below `POLICYDB_VERSION_AVTAB`. -/
def avtabReadOldItem (insertf : AvtabKey → AvtabDatum → σ → Except Fault σ) (st : σ) :
    PolicyReader σ := do
  let items2 ← nextU32
  ByteReader.require einval (items2 ≤ 8)
  let buf ← ByteReader.several nextU32 items2.toNat
  ByteReader.lift (avtabReadOldEntry insertf buf st)

/-- The datum of an entry: an extended one with its eight words, or one word. -/
def avtabReadDatum (specified : U16) : PolicyReader AvtabDatum :=
  if specified &&& avtabXperms ≠ 0 then do
    let specified ← nextU8
    let driver ← nextU8
    let p0 ← nextU32
    let p1 ← nextU32
    let p2 ← nextU32
    let p3 ← nextU32
    let p4 ← nextU32
    let p5 ← nextU32
    let p6 ← nextU32
    let p7 ← nextU32
    pure (.xperms { specified, driver, perms := ⟨#v[p0, p1, p2, p3, p4, p5, p6, p7]⟩ })
  else do
    let data ← nextU32
    pure (.data data)

/-- The number of specifiers of an entry. -/
def specCount (specified : U16) : Nat := specOrder.countP fun spec => specified &&& spec ≠ 0

/-- `avtab_read_item`, with the state that `insertf` changes. -/
def avtabReadItem (p : Policydb) (insertf : AvtabKey → AvtabDatum → σ → Except Fault σ) (st : σ) :
    PolicyReader σ :=
  if p.policyvers < policydbVersionAvtab then avtabReadOldItem insertf st
  else do
    let sourceType ← nextU16
    let targetType ← nextU16
    let targetClass ← nextU16
    let specified ← nextU16
    ByteReader.require einval (policydbTypeIsvalid p (sourceType.zeroExtend 32) ∧
      policydbTypeIsvalid p (targetType.zeroExtend 32) ∧
      policydbClassIsvalid p (targetClass.zeroExtend 32))
    ByteReader.require einval (specCount specified = 1)
    ByteReader.require einval (¬ (p.policyvers < policydbVersionXpermsIoctl ∧
      specified &&& avtabXperms ≠ 0))
    let datum ← avtabReadDatum specified
    ByteReader.require einval (specified &&& avtabType ≠ 0 → policydbTypeIsvalid p datum.u)
    ByteReader.lift (insertf { sourceType, targetType, targetClass, specified } datum st)

/-- `avtab_read`, with `avtab_insertf`. -/
def avtabRead (p : Policydb) : PolicyReader Avtab := do
  let nel ← nextU32
  ByteReader.require einval (nel ≠ 0)
  ByteReader.times (avtabReadItem p fun key datum a => avtabInsert a key datum) nel.toNat
    (avtabAlloc nel)

/-- The checks of `cond_insertf` on a type rule; `other` is the true list while the false
list is read. -/
def condInsertfCheck (teAvtab teCondAvtab : Avtab) (other : Option (List Nat)) (k : AvtabKey) :
    Except Fault Unit :=
  if k.specified &&& avtabType = 0 then .ok ()
  else if (avtabSearchNode teAvtab k).isSome then .error einval
  else
    match other, avtabSearchNode teCondAvtab k with
    | _, none => .ok ()
    | none, some _ => .error einval
    | some list, some (node, next) =>
      if (avtabSearchNodeNext node next k.specified).isSome then .error einval
      else if list.contains node.addr then .ok ()
      else .error einval

/-- `cond_insertf`: the table and what `*data->dst` points to. -/
def condInsertf (teAvtab : Avtab) (other : Option (List Nat)) (k : AvtabKey) (d : AvtabDatum)
    (st : Avtab × Option Nat) : Except Fault (Avtab × Option Nat) :=
  match condInsertfCheck teAvtab st.1 other k with
  | .error e => .error e
  | .ok _ =>
    match avtabInsertNonunique st.1 k d with
    | none => .error (.err .ENOMEM)
    | some (table, addr) => .ok (table, some addr)

/-- One rule in the loop of `cond_read_av_list`. -/
def condReadAvItem (p : Policydb) (other : Option (List Nat)) (st : Avtab × List Nat) :
    PolicyReader (Avtab × List Nat) := do
  let (table, dst) ← avtabReadItem p (condInsertf p.teAvtab other) (st.1, none)
  let addr ← ByteReader.lift (derefPtr dst)
  pure (table, st.2 ++ [addr])

/-- `cond_read_av_list`. -/
def condReadAvList (p : Policydb) (teCondAvtab : Avtab) (other : Option (List Nat)) :
    PolicyReader (Avtab × List Nat) := do
  let len ← nextU32
  ByteReader.times (condReadAvItem p other) len.toNat (teCondAvtab, [])

/-- `expr_node_isvalid`. -/
def exprNodeIsvalid (p : Policydb) (expr : CondExprNode) : Bool :=
  expr.exprType ≠ 0 && expr.exprType ≤ condLast && expr.boolean ≤ p.pBools.nprim

/-- One node of a conditional expression in `cond_read_node`. -/
def condReadExprNode (p : Policydb) : PolicyReader CondExprNode := do
  let exprType ← nextU32
  let boolean ← nextU32
  ByteReader.require einval (exprNodeIsvalid p { exprType, boolean })
  pure { exprType, boolean }

/-- `cond_read_node`, appended to the list. -/
def condReadNode (p : Policydb) (st : Avtab × List CondNode) :
    PolicyReader (Avtab × List CondNode) := do
  let curState ← nextU32
  let len ← nextU32
  let expr ← ByteReader.several (condReadExprNode p) len.toNat
  let (teCondAvtab, trueList) ← condReadAvList p st.1 none
  let (teCondAvtab, falseList) ← condReadAvList p teCondAvtab (some trueList)
  pure (teCondAvtab, st.2 ++ [{ curState, expr, trueList, falseList }])

/-- `cond_read_list`. -/
def condReadList (p : Policydb) : PolicyReader Policydb := do
  let len ← nextU32
  let (teCondAvtab, condList) ← ByteReader.times (condReadNode p) len.toNat
    (avtabAlloc (BitVec.ofNat 32 p.teAvtab.nel), [])
  pure { p with teCondAvtab, condList }

end Rules

section Transitions

/-- One role transition in `policydb_read`. -/
def roleTransReadOne (p : Policydb) (table : Hashtab RoleTransKey RoleTransDatum) :
    PolicyReader (Hashtab RoleTransKey RoleTransDatum) := do
  let role ← nextU32
  let type ← nextU32
  let newRole ← nextU32
  let tclass ← (if policydbVersionRoletrans ≤ p.policyvers then nextU32
    else pure (p.processClass.zeroExtend 32))
  ByteReader.require einval (policydbRoleIsvalid p role ∧ policydbTypeIsvalid p type ∧
    policydbClassIsvalid p tclass ∧ policydbRoleIsvalid p newRole)
  ByteReader.lift (hashtabInsert roletrKeyParams table { role, type, tclass } { newRole })

/-- The role transitions in `policydb_read`. -/
def roleTransRead (p : Policydb) : PolicyReader (Hashtab RoleTransKey RoleTransDatum) := do
  let nel ← nextU32
  let table ← ByteReader.lift (hashtabInit nel)
  ByteReader.times (roleTransReadOne p) nel.toNat table

/-- One role allow rule in `policydb_read`. -/
def roleAllowReadOne (p : Policydb) : PolicyReader RoleAllow := do
  let role ← nextU32
  let newRole ← nextU32
  ByteReader.require einval (policydbRoleIsvalid p role ∧ policydbRoleIsvalid p newRole)
  pure { role, newRole }

/-- The role allow rules in `policydb_read`. -/
def roleAllowRead (p : Policydb) : PolicyReader (List RoleAllow) := do
  let nel ← nextU32
  ByteReader.several (roleAllowReadOne p) nel.toNat

/-- The file name transitions read so far, with the bitmap of their target types. -/
abbrev FilenameTrans := Hashtab FilenameTransKey (List FilenameTransDatum) × Ebitmap

/-- What the walk over the data of a key finds for a source type: it is there already,
there is a datum of the new type at an index, or neither. -/
inductive FilenametrSlot where
  | duplicate
  | datum (index : Nat)
  | missing
  deriving DecidableEq, Repr

/-- The walk in `filename_trans_read_helper_compat`. -/
def filenametrWalk (bit : Nat) (otype : U32) : List FilenameTransDatum → FilenametrSlot
  | [] => .missing
  | datum :: next =>
    if ebitmapGetBit datum.stypes bit then .duplicate
    else if datum.otype = otype then .datum 0
    else
      match filenametrWalk bit otype next with
      | .duplicate => .duplicate
      | .datum index => .datum (index + 1)
      | .missing => .missing

/-- `ebitmap_set_bit(&datum->stypes, stype - 1, 1)`. -/
def FilenameTransDatum.addStype (datum : FilenameTransDatum) (bit : Nat) : FilenameTransDatum :=
  { datum with stypes := ebitmapSetBit datum.stypes bit true }

/-- Replace the data of a key that is in the table. -/
def filenametrUpdate (table : Hashtab FilenameTransKey (List FilenameTransDatum))
    (key : FilenameTransKey) (data : List FilenameTransDatum) :
    Hashtab FilenameTransKey (List FilenameTransDatum) :=
  { table with
    htable := table.htable.map (·.map fun entry => if entry.1 = key then (key, data) else entry) }

/-- What `filename_trans_read_helper_compat` does with a record. -/
def filenametrAddCompat (st : FilenameTrans) (stype : U32) (key : FilenameTransKey) (otype : U32) :
    Except Fault FilenameTrans :=
  let bit := (stype - 1).toNat
  let fresh : FilenameTransDatum := { stypes := ebitmapInit, otype }
  match hashtabSearch filenametrKeyParams st.1 key with
  | some data =>
    match filenametrWalk bit otype data with
    | .duplicate => .ok st
    | .datum index => .ok (filenametrUpdate st.1 key (data.modify index (·.addStype bit)), st.2)
    | .missing => .ok (filenametrUpdate st.1 key (data ++ [fresh.addStype bit]), st.2)
  | none =>
    match hashtabInsert filenametrKeyParams st.1 key [fresh.addStype bit] with
    | .error e => .error e
    | .ok table => .ok (table, ebitmapSetBit st.2 key.ttype.toNat true)

/-- `filename_trans_read_helper_compat`. -/
def filenameTransReadHelperCompat (st : FilenameTrans) : PolicyReader FilenameTrans := do
  let len ← nextU32
  let name ← strRead len
  let stype ← nextU32
  let ttype ← nextU32
  let tclass ← nextU32
  let otype ← nextU32
  ByteReader.lift (filenametrAddCompat st stype { ttype, tclass := tclass.truncate 16, name } otype)

/-- One datum in the loop of `filename_trans_read_helper`. -/
def filenametrReadDatum : PolicyReader FilenameTransDatum := do
  let stypes ← ebitmapRead
  let otype ← nextU32
  pure { stypes, otype }

/-- `filename_trans_read_helper`. -/
def filenameTransReadHelper (st : FilenameTrans) : PolicyReader FilenameTrans := do
  let len ← nextU32
  let name ← strRead len
  let ttype ← nextU32
  let tclass ← nextU32
  let ndatum ← nextU32
  ByteReader.require (.err .ENOENT) (ndatum ≠ 0)
  let data ← ByteReader.several filenametrReadDatum ndatum.toNat
  let table ← ByteReader.lift (hashtabInsert filenametrKeyParams st.1
    { ttype, tclass := tclass.truncate 16, name } data)
  pure (table, ebitmapSetBit st.2 ttype.toNat true)

/-- `filename_trans_read`. -/
def filenameTransRead (p : Policydb) : PolicyReader Policydb :=
  if p.policyvers < policydbVersionFilenameTrans then pure p
  else do
    let nel ← nextU32
    if p.policyvers < policydbVersionCompFtrans then do
      let table ← ByteReader.lift (hashtabInit (1 <<< 11))
      let (filenameTrans, filenameTransTtypes) ← ByteReader.times filenameTransReadHelperCompat
        nel.toNat (table, p.filenameTransTtypes)
      pure { p with compatFilenameTransCount := nel, filenameTrans, filenameTransTtypes }
    else do
      let table ← ByteReader.lift (hashtabInit nel)
      let (filenameTrans, filenameTransTtypes) ← ByteReader.times filenameTransReadHelper
        nel.toNat (table, p.filenameTransTtypes)
      pure { p with filenameTrans, filenameTransTtypes }

/-- One range transition in `range_read`. -/
def rangeReadOne (p : Policydb) (table : Hashtab RangeTrans MlsRange) :
    PolicyReader (Hashtab RangeTrans MlsRange) := do
  let sourceType ← nextU32
  let targetType ← nextU32
  let targetClass ← (if policydbVersionRangetrans ≤ p.policyvers then nextU32
    else pure (p.processClass.zeroExtend 32))
  ByteReader.require einval (policydbTypeIsvalid p sourceType ∧ policydbTypeIsvalid p targetType ∧
    policydbClassIsvalid p targetClass)
  let range ← mlsReadRangeHelper
  let valid ← ByteReader.lift (mlsRangeIsvalid p range)
  ByteReader.require einval (valid = true)
  ByteReader.lift (hashtabInsert rangetrKeyParams table { sourceType, targetType, targetClass } range)

/-- `range_read`. -/
def rangeRead (p : Policydb) : PolicyReader (Hashtab RangeTrans MlsRange) :=
  if p.policyvers < policydbVersionMls then pure p.rangeTr
  else do
    let nel ← nextU32
    let table ← ByteReader.lift (hashtabInit nel)
    ByteReader.times (rangeReadOne p) nel.toNat table

end Transitions

section Index

variable {δ : Type}

/-- The bytes `kvcalloc` gives at most. -/
def kvmallocMax : Nat := 0x7fffffff

/-- An array of `nprim` pointers, all `NULL`. -/
def pointerArray {α : Type} (nprim : U32) : Except Fault (List (Option α)) :=
  if kvmallocMax < nprim.toNat * 8 then .error (.err .ENOMEM)
  else .ok (List.replicate nprim.toNat none)

/-- The array of names and the array of data that an index function fills. -/
abbrev IndexArrays (δ : Type) := List (Option Name) × List (Option δ)

/-- What the index functions share: the value is checked and the entry stored under it. -/
def indexAt (nprim value : U32) (bounded : Bool) (key : Name) (datum : δ)
    (arrays : IndexArrays δ) : Except Fault (IndexArrays δ) :=
  if valueIsvalid nprim value && bounded then
    .ok (arrays.1.set (value - 1).toNat (some key), arrays.2.set (value - 1).toNat (some datum))
  else .error einval

/-- `common_index`; there is no array of commons. -/
def commonIndex (nprim : U32) (key : Name) (datum : CommonDatum) :=
  indexAt nprim datum.value true key ()

/-- `class_index`. -/
def classIndex (nprim : U32) (key : Name) (datum : ClassDatum) :=
  indexAt nprim datum.value true key datum

/-- `role_index`. -/
def roleIndex (nprim : U32) (key : Name) (datum : RoleDatum) :=
  indexAt nprim datum.value (datum.bounds ≤ nprim) key datum

/-- `type_index`: only primary names. -/
def typeIndex (nprim : U32) (key : Name) (datum : TypeDatum) (arrays : IndexArrays TypeDatum) :
    Except Fault (IndexArrays TypeDatum) :=
  if datum.primary ≠ 0 then indexAt nprim datum.value (datum.bounds ≤ nprim) key datum arrays
  else .ok arrays

/-- `user_index`. -/
def userIndex (nprim : U32) (key : Name) (datum : UserDatum) :=
  indexAt nprim datum.value (datum.bounds ≤ nprim) key datum

/-- `cond_index_bool`. -/
def condIndexBool (nprim : U32) (key : Name) (datum : CondBoolDatum) :=
  indexAt nprim datum.value true key key

/-- `sens_index`: no aliases. -/
def sensIndex (nprim : U32) (key : Name) (datum : LevelDatum) (arrays : IndexArrays Unit) :
    Except Fault (IndexArrays Unit) :=
  if datum.isalias = 0 then indexAt nprim datum.level.sens true key () arrays else .ok arrays

/-- `cat_index`: no aliases. -/
def catIndex (nprim : U32) (key : Name) (datum : CatDatum) (arrays : IndexArrays Unit) :
    Except Fault (IndexArrays Unit) :=
  if datum.isalias = 0 then indexAt nprim datum.value true key () arrays else .ok arrays

/-- One round of the loop of `policydb_index`. -/
def symtabIndex {α : Type} (s : Symtab δ)
    (index : U32 → Name → δ → IndexArrays α → Except Fault (IndexArrays α))
    (array : List (Option α)) : Except Fault (IndexArrays α) := do
  let names ← pointerArray s.nprim
  hashtabMap (index s.nprim) s.table.entries (names, array)

/-- `policydb_index`. -/
def policydbIndex (p : Policydb) : Except Fault Policydb := do
  let classArray ← pointerArray p.pClasses.nprim
  let roleArray ← pointerArray p.pRoles.nprim
  let userArray ← pointerArray p.pUsers.nprim
  let typeArray ← pointerArray p.pTypes.nprim
  let boolArray ← pointerArray p.pBools.nprim
  let (commons, _) ← symtabIndex p.pCommons commonIndex []
  let (classes, classValToStruct) ← symtabIndex p.pClasses classIndex classArray
  let (roles, roleValToStruct) ← symtabIndex p.pRoles roleIndex roleArray
  let (types, typeValToStruct) ← symtabIndex p.pTypes typeIndex typeArray
  let (users, userValToStruct) ← symtabIndex p.pUsers userIndex userArray
  let (bools, boolValToStruct) ← symtabIndex p.pBools condIndexBool boolArray
  let (levels, _) ← symtabIndex p.pLevels sensIndex []
  let (cats, _) ← symtabIndex p.pCats catIndex []
  pure { p with
    symValToName := { commons, classes, roles, types, users, bools, levels, cats }
    classValToStruct, roleValToStruct, typeValToStruct, userValToStruct, boolValToStruct }

/-- The loop of the three bounds checks: `left` more steps up are allowed. -/
def boundsLoop (bounds : δ → U32) (array : List (Option δ)) (check : δ → Except Fault Unit) :
    Nat → δ → Except Fault Unit
  | left, upper =>
    if bounds upper = 0 then .ok ()
    else
      match left with
      | 0 => .error einval
      | left + 1 => do
        let entry ← atValue array (bounds upper)
        let upper ← derefPtr entry
        check upper
        boundsLoop bounds array check left upper

/-- Every bit of `lower` is one of `upper`; the complaint about a bit prints its name. -/
def boundsBits (names : List (Option Name)) (upper : Ebitmap) : List U32 → Except Fault Unit
  | [] => .ok ()
  | bit :: rest =>
    if ebitmapGetBit upper bit.toNat then boundsBits names upper rest
    else if bit.toNat < names.length then .error einval
    else .error .oops

/-- `user_bounds_sanity_check`. -/
def userBoundsSanityCheck (p : Policydb) (user : UserDatum) : Except Fault Unit :=
  boundsLoop UserDatum.bounds p.userValToStruct
    (fun upper => boundsBits p.symValToName.roles upper.roles (ebitmapPositiveBits user.roles))
    (policydbBoundsMaxdepth - 1) user

/-- `role_bounds_sanity_check`. -/
def roleBoundsSanityCheck (p : Policydb) (role : RoleDatum) : Except Fault Unit :=
  boundsLoop RoleDatum.bounds p.roleValToStruct
    (fun upper => boundsBits p.symValToName.types upper.types (ebitmapPositiveBits role.types))
    (policydbBoundsMaxdepth - 1) role

/-- `type_bounds_sanity_check`. -/
def typeBoundsSanityCheck (p : Policydb) (type : TypeDatum) : Except Fault Unit :=
  boundsLoop TypeDatum.bounds p.typeValToStruct
    (fun upper => if upper.isAttribute ≠ 0 then .error einval else .ok ())
    (policydbBoundsMaxdepth - 1) type

/-- `policydb_bounds_sanity_check`. -/
def policydbBoundsSanityCheck (p : Policydb) : Except Fault Unit :=
  if p.policyvers < policydbVersionBoundary then .ok ()
  else do
    hashtabMap (fun _ user _ => userBoundsSanityCheck p user) p.pUsers.table.entries ()
    hashtabMap (fun _ role _ => roleBoundsSanityCheck p role) p.pRoles.table.entries ()
    hashtabMap (fun _ type _ => typeBoundsSanityCheck p type) p.pTypes.table.entries ()

end Index

section Contexts

/-- `context_read_and_validate`. -/
def contextReadAndValidate (p : Policydb) : PolicyReader Context := do
  let user ← nextU32
  let role ← nextU32
  let type ← nextU32
  let range ← (if policydbVersionMls ≤ p.policyvers then mlsReadRangeHelper else pure mlsRangeZero)
  let c : Context := { user, role, type, range, str := none }
  let valid ← ByteReader.lift (policydbContextIsvalid p c)
  ByteReader.require einval (valid = true)
  pure c

/-- An object context that is zeroed but for `u`, `v` and its first context. -/
def ocontextOf (u : OcontextU) (v : U32) (context0 : Context) : Ocontext :=
  { u, v, context0, context1 := contextInit, sid0 := 0, sid1 := 0 }

def oconIsid : Nat := 0
def oconFs : Nat := 1
def oconPort : Nat := 2
def oconNetif : Nat := 3
def oconNode : Nat := 4
def oconFsuse : Nat := 5
def oconNode6 : Nat := 6
def oconIbpkey : Nat := 7
def oconIbendport : Nat := 8

def securityFsUseMntpoint : U32 := 6
def securityFsUseMax : U32 := 7

/-- Four words that keep their network order. -/
def nextAddr6 : PolicyReader (Vector U32 4) := do
  let a0 ← nextU32
  let a1 ← nextU32
  let a2 ← nextU32
  let a3 ← nextU32
  pure #v[a0, a1, a2, a3]

/-- `be64_to_cpu` of the next entry. -/
def nextBe64 : PolicyReader U64 := do
  let buf ← nextEntry 8
  pure (le64ToCpu buf.reverse)

/-- One entry in the loop of `ocontext_read`, of the kind `i`. -/
def ocontextReadOne (p : Policydb) (i : Nat) : PolicyReader Ocontext :=
  if i = oconIsid then do
    let sid0 ← nextU32
    let c ← contextReadAndValidate p
    pure { ocontextOf .isid 0 c with sid0 }
  else if i = oconFs ∨ i = oconNetif then do
    let len ← nextU32
    let name ← strRead len
    let context0 ← contextReadAndValidate p
    let context1 ← contextReadAndValidate p
    pure { ocontextOf (.name name) 0 context0 with context1 }
  else if i = oconPort then do
    let protocol ← nextU32
    let low ← nextU32
    let high ← nextU32
    let c ← contextReadAndValidate p
    pure (ocontextOf (.port (protocol.truncate 8) (low.truncate 16) (high.truncate 16)) 0 c)
  else if i = oconNode then do
    let addr ← nextU32
    let mask ← nextU32
    let c ← contextReadAndValidate p
    pure (ocontextOf (.node addr mask) 0 c)
  else if i = oconFsuse then do
    let behavior ← nextU32
    let len ← nextU32
    ByteReader.require einval (behavior ≠ securityFsUseMntpoint)
    ByteReader.require einval (behavior ≤ securityFsUseMax)
    let name ← strRead len
    let c ← contextReadAndValidate p
    pure (ocontextOf (.name name) behavior c)
  else if i = oconNode6 then do
    let addr ← nextAddr6
    let mask ← nextAddr6
    let c ← contextReadAndValidate p
    pure (ocontextOf (.node6 addr mask) 0 c)
  else if i = oconIbpkey then do
    let subnetPrefix ← nextBe64
    let pkeyLo ← nextU32
    let pkeyHi ← nextU32
    ByteReader.require einval (pkeyLo ≤ 0xffff ∧ pkeyHi ≤ 0xffff)
    let c ← contextReadAndValidate p
    pure (ocontextOf (.ibpkey subnetPrefix (pkeyLo.truncate 16) (pkeyHi.truncate 16)) 0 c)
  else do
    let len ← nextU32
    let port ← nextU32
    let devName ← strRead len
    ByteReader.require einval (port ≤ 0xff ∧ port ≠ 0)
    let c ← contextReadAndValidate p
    pure (ocontextOf (.ibendport devName (port.truncate 8)) 0 c)

/-- The loop of `ocontext_read` from kind `i` on, `left` kinds in all. -/
def ocontextReadFrom (p : Policydb) : Nat → Nat → Vector (List Ocontext) 9 →
    PolicyReader (Vector (List Ocontext) 9)
  | 0, _, ocontexts => pure ocontexts
  | left + 1, i, ocontexts => do
    let nel ← nextU32
    let list ← ByteReader.several (ocontextReadOne p i) nel.toNat
    ocontextReadFrom p left (i + 1) (ocontexts.setIfInBounds i list)

/-- `ocontext_read`. -/
def ocontextRead (p : Policydb) (info : PolicydbCompatInfo) :
    PolicyReader (Vector (List Ocontext) 9) :=
  ocontextReadFrom p info.oconNum 0 p.ocontexts

namespace Ocontext

/-- `u.name`. -/
def uName (c : Ocontext) : Name :=
  match c.u with
  | .name name => name
  | _ => []

end Ocontext

/-- The walk over the entries of a filesystem type in `genfs_read`, and the link. -/
def genfsInsertEntry (newc : Ocontext) : List Ocontext → Except Fault (List Ocontext)
  | [] => .ok [newc]
  | c :: next =>
    if newc.uName = c.uName ∧ (c.v = 0 ∨ newc.v = 0 ∨ newc.v = c.v) then .error einval
    else if c.uName.length < newc.uName.length then .ok (newc :: c :: next)
    else
      match genfsInsertEntry newc next with
      | .error e => .error e
      | .ok next => .ok (c :: next)

/-- One entry of a filesystem type in `genfs_read`. -/
def genfsReadEntry (p : Policydb) (head : List Ocontext) : PolicyReader (List Ocontext) := do
  let len ← nextU32
  let name ← strRead len
  let sclass ← nextU32
  let c ← contextReadAndValidate p
  ByteReader.lift (genfsInsertEntry (ocontextOf (.name name) sclass c) head)

/-- The walk over the filesystem types in `genfs_read`: those before and behind the place
of a new one. -/
def genfsPlace (fstype : Name) : List Genfs → Except Fault (List Genfs × List Genfs)
  | [] => .ok ([], [])
  | genfs :: next =>
    if strcmp fstype genfs.fstype = 0 then .error einval
    else if strcmp fstype genfs.fstype < 0 then .ok ([], genfs :: next)
    else
      match genfsPlace fstype next with
      | .error e => .error e
      | .ok (before, behind) => .ok (genfs :: before, behind)

/-- One filesystem type in `genfs_read`. -/
def genfsReadOne (p : Policydb) (genfs : List Genfs) : PolicyReader (List Genfs) := do
  let len ← nextU32
  let fstype ← strRead len
  let (before, behind) ← ByteReader.lift (genfsPlace fstype genfs)
  let nel2 ← nextU32
  let head ← ByteReader.times (genfsReadEntry p) nel2.toNat []
  pure (before ++ { fstype, head } :: behind)

/-- `genfs_read`. -/
def genfsRead (p : Policydb) : PolicyReader (List Genfs) := do
  let nel ← nextU32
  ByteReader.times (genfsReadOne p) nel.toNat []

end Contexts

/-- The attribute map of one type in `policydb_read`. -/
def typeAttrMapRead (vers : U32) (i : Nat) : PolicyReader Ebitmap := do
  let e ← (if policydbVersionAvtab ≤ vers then ebitmapRead else pure ebitmapInit)
  pure (ebitmapSetBit e i true)

/-- The attribute maps of the types from `i` on, `left` of them. -/
def typeAttrMapsRead (vers : U32) : Nat → Nat → PolicyReader (List Ebitmap)
  | 0, _ => pure []
  | left + 1, i => do
    let e ← typeAttrMapRead vers i
    let rest ← typeAttrMapsRead vers left (i + 1)
    pure (e :: rest)

/-- The name and string at the start of an image. -/
def policydbReadMagic : PolicyReader Unit := do
  let magic ← nextU32
  let len ← nextU32
  ByteReader.require einval (magic = policydbMagic)
  ByteReader.require einval (len = BitVec.ofNat 32 policydbString.length)
  let str ← nextEntry len.toNat
  ByteReader.require einval (cString str = policydbString)

/-- The version, configuration, and table sizes. -/
def policydbReadHeader : PolicyReader (Policydb × PolicydbCompatInfo) := do
  policydbReadMagic
  let policyvers ← nextU32
  let config ← nextU32
  let syms ← nextU32
  let ocons ← nextU32
  ByteReader.require einval (policydbVersionMin ≤ policyvers ∧ policyvers ≤ policydbVersionMax)
  let mlsEnabled := decide (config &&& policydbConfigMls ≠ 0)
  ByteReader.require einval (mlsEnabled → policydbVersionMls ≤ policyvers)
  let policycaps ← (if policydbVersionPolcap ≤ policyvers then ebitmapRead else pure ebitmapInit)
  let permissiveMap ← (if policydbVersionPermissive ≤ policyvers then ebitmapRead
    else pure ebitmapInit)
  match policydbLookupCompat policyvers with
  | none => ByteReader.fail einval
  | some info => do
    ByteReader.require einval (syms.toNat = info.symNum ∧ ocons.toNat = info.oconNum)
    pure ({ policydbInit with
      policyvers, mlsEnabled, policycaps, permissiveMap
      rejectUnknown := decide (config &&& rejectUnknownFlag ≠ 0)
      allowUnknown := decide (config &&& allowUnknownFlag ≠ 0) }, info)

def processName : Name := cstr ['p', 'r', 'o', 'c', 'e', 's', 's']
def transitionName : Name := cstr ['t', 'r', 'a', 'n', 's', 'i', 't', 'i', 'o', 'n']
def dyntransitionName : Name := cstr ['d', 'y', 'n'] ++ transitionName

/-- The two permissions of the process class that `policydb_read` requires. -/
def processTransPerms (p : Policydb) : Except Fault U32 := do
  let perm ← stringToAvPerm p p.processClass transitionName
  if perm = 0 then .error einval
  else do
    let dyn ← stringToAvPerm p p.processClass dyntransitionName
    if dyn = 0 then .error einval else pure (perm ||| dyn)

/-- `policydb_read` up to the object contexts. -/
def policydbReadRules : PolicyReader (Policydb × PolicydbCompatInfo) := do
  let (p, info) ← policydbReadHeader
  let p ← symtabsRead info.symNum p
  let processClass := stringToSecurityClass p processName
  ByteReader.require einval (processClass ≠ 0)
  let p := { p with processClass }
  let teAvtab ← avtabRead p
  let p := { p with teAvtab }
  let p ← (if policydbVersionBool ≤ p.policyvers then condReadList p else pure p)
  let roleTr ← roleTransRead p
  let roleAllow ← roleAllowRead p
  let p ← filenameTransRead { p with roleTr, roleAllow }
  let p ← ByteReader.lift (policydbIndex p)
  let perms ← ByteReader.lift (processTransPerms p)
  pure ({ p with processTransPerms := perms }, info)

/-- `policydb_read`. -/
def policydbRead : PolicyReader Policydb := do
  let (p, info) ← policydbReadRules
  let ocontexts ← ocontextRead p info
  let genfs ← genfsRead p
  let rangeTr ← rangeRead p
  let typeAttrMapArray ← typeAttrMapsRead p.policyvers p.pTypes.nprim.toNat 0
  let p := { p with ocontexts, genfs, rangeTr, typeAttrMapArray }
  ByteReader.lift (policydbBoundsSanityCheck p)
  pure p

/-- The policy database that `policydb_read` makes of an image and `security_load_policy`
stamps with its length. -/
def policydbOfImage (image : List U8) : Except Fault Policydb :=
  match policydbRead image with
  | .error e => .error e
  | .ok (p, _) => .ok { p with len := image.length }

end Ksrc.Source

import Ksrc.Source.Avtab
import Ksrc.Source.Context
import Ksrc.Source.Hashtab

/-!
# The policy database

Source: `security/selinux/ss/policydb.h`, `constraint.h`, `conditional.h`, and of
`policydb.c` the key parameters, searches and validity checks; `mls_types.h` and `mls.c`
for those of levels and ranges.

Arrays indexed by value have an entry for each value from 1 up to `nprim`; `none` is a
`NULL` entry. The entries of the boolean array point into the symbol table of the
booleans, whose state changes, so an entry is the name to look up there; the other
arrays point to data that never changes after the policy is read, and hold it.
-/
namespace Ksrc.Source

def policydbVersionBase : U32 := 15
def policydbVersionBool : U32 := 16
def policydbVersionIpv6 : U32 := 17
def policydbVersionNlclass : U32 := 18
def policydbVersionValidatetrans : U32 := 19
def policydbVersionMls : U32 := 19
def policydbVersionAvtab : U32 := 20
def policydbVersionRangetrans : U32 := 21
def policydbVersionPolcap : U32 := 22
def policydbVersionPermissive : U32 := 23
def policydbVersionBoundary : U32 := 24
def policydbVersionFilenameTrans : U32 := 25
def policydbVersionRoletrans : U32 := 26
def policydbVersionNewObjectDefaults : U32 := 27
def policydbVersionDefaultType : U32 := 28
def policydbVersionConstraintNames : U32 := 29
def policydbVersionXpermsIoctl : U32 := 30
def policydbVersionInfiniband : U32 := 31
def policydbVersionGlblub : U32 := 32
def policydbVersionCompFtrans : U32 := 33
def policydbVersionMin : U32 := policydbVersionBase
def policydbVersionMax : U32 := policydbVersionCompFtrans

/-- `POLICYDB_BOUNDS_MAXDEPTH`. -/
def policydbBoundsMaxdepth : Nat := 4

def objectR : Name := cstr ['o', 'b', 'j', 'e', 'c', 't', '_', 'r']
def objectRVal : U32 := 1

structure PermDatum where
  value : U32
  deriving DecidableEq, Repr

structure CommonDatum where
  value : U32
  permissions : Symtab PermDatum
  deriving DecidableEq, Repr

structure TypeSet where
  types : Ebitmap
  negset : Ebitmap
  flags : U32
  deriving DecidableEq, Repr

structure ConstraintExpr where
  exprType : U32
  attr : U32
  op : U32
  names : Ebitmap
  typeNames : Option TypeSet
  deriving DecidableEq, Repr

structure ConstraintNode where
  permissions : U32
  expr : List ConstraintExpr
  deriving DecidableEq, Repr

structure ClassDatum where
  value : U32
  comkey : Option Name
  comdatum : Option CommonDatum
  permissions : Symtab PermDatum
  constraints : List ConstraintNode
  validatetrans : List ConstraintNode
  defaultUser : U8
  defaultRole : U8
  defaultType : U8
  defaultRange : U8
  deriving DecidableEq, Repr

structure RoleDatum where
  value : U32
  bounds : U32
  dominates : Ebitmap
  types : Ebitmap
  deriving DecidableEq, Repr

structure RoleTransKey where
  role : U32
  type : U32
  tclass : U32
  deriving DecidableEq, Repr

structure RoleTransDatum where
  newRole : U32
  deriving DecidableEq, Repr

structure FilenameTransKey where
  ttype : U32
  tclass : U16
  name : Name
  deriving DecidableEq, Repr

structure FilenameTransDatum where
  stypes : Ebitmap
  otype : U32
  deriving DecidableEq, Repr

structure RoleAllow where
  role : U32
  newRole : U32
  deriving DecidableEq, Repr

structure TypeDatum where
  value : U32
  bounds : U32
  primary : U8
  isAttribute : U8
  deriving DecidableEq, Repr

structure UserDatum where
  value : U32
  bounds : U32
  roles : Ebitmap
  range : MlsRange
  dfltlevel : MlsLevel
  deriving DecidableEq, Repr

structure LevelDatum where
  level : MlsLevel
  isalias : U8
  deriving DecidableEq, Repr

structure CatDatum where
  value : U32
  isalias : U8
  deriving DecidableEq, Repr

structure RangeTrans where
  sourceType : U32
  targetType : U32
  targetClass : U32
  deriving DecidableEq, Repr

structure CondBoolDatum where
  value : U32
  state : U32
  deriving DecidableEq, Repr

/-- The union `u` of `struct ocontext`. -/
inductive OcontextU where
  | isid
  | name (name : Name)
  | port (protocol : U8) (lowPort highPort : U16)
  | node (addr mask : U32)
  | node6 (addr mask : Vector U32 4)
  | ibpkey (subnetPrefix : U64) (lowPkey highPkey : U16)
  | ibendport (devName : Name) (port : U8)
  deriving DecidableEq, Repr

/-- `struct ocontext`; `v` is the union of `sclass` and `behavior`. -/
structure Ocontext where
  u : OcontextU
  v : U32
  context0 : Context
  context1 : Context
  sid0 : U32
  sid1 : U32
  deriving DecidableEq, Repr

structure Genfs where
  fstype : Name
  head : List Ocontext
  deriving DecidableEq, Repr

structure CondExprNode where
  exprType : U32
  boolean : U32
  deriving DecidableEq, Repr

/-- `struct cond_node`; the two lists hold addresses of nodes of `te_cond_avtab`. -/
structure CondNode where
  curState : U32
  expr : List CondExprNode
  trueList : List Nat
  falseList : List Nat
  deriving DecidableEq, Repr

/-- `sym_val_to_name`, an array for each symbol table. -/
structure SymValToName where
  commons : List (Option Name)
  classes : List (Option Name)
  roles : List (Option Name)
  types : List (Option Name)
  users : List (Option Name)
  bools : List (Option Name)
  levels : List (Option Name)
  cats : List (Option Name)
  deriving DecidableEq, Repr

structure Policydb where
  mlsEnabled : Bool
  pCommons : Symtab CommonDatum
  pClasses : Symtab ClassDatum
  pRoles : Symtab RoleDatum
  pTypes : Symtab TypeDatum
  pUsers : Symtab UserDatum
  pBools : Symtab CondBoolDatum
  pLevels : Symtab LevelDatum
  pCats : Symtab CatDatum
  symValToName : SymValToName
  classValToStruct : List (Option ClassDatum)
  roleValToStruct : List (Option RoleDatum)
  userValToStruct : List (Option UserDatum)
  typeValToStruct : List (Option TypeDatum)
  teAvtab : Avtab
  roleTr : Hashtab RoleTransKey RoleTransDatum
  filenameTransTtypes : Ebitmap
  filenameTrans : Hashtab FilenameTransKey (List FilenameTransDatum)
  compatFilenameTransCount : U32
  boolValToStruct : List (Option Name)
  teCondAvtab : Avtab
  condList : List CondNode
  roleAllow : List RoleAllow
  ocontexts : Vector (List Ocontext) 9
  genfs : List Genfs
  rangeTr : Hashtab RangeTrans MlsRange
  typeAttrMapArray : List Ebitmap
  policycaps : Ebitmap
  permissiveMap : Ebitmap
  len : Nat
  policyvers : U32
  rejectUnknown : Bool
  allowUnknown : Bool
  processClass : U16
  processTransPerms : U32

/-- `policydb_init`. -/
def policydbInit : Policydb :=
  { mlsEnabled := false
    pCommons := symtabZero, pClasses := symtabZero, pRoles := symtabZero, pTypes := symtabZero
    pUsers := symtabZero, pBools := symtabZero, pLevels := symtabZero, pCats := symtabZero
    symValToName :=
      { commons := [], classes := [], roles := [], types := [], users := [], bools := []
        levels := [], cats := [] }
    classValToStruct := [], roleValToStruct := [], userValToStruct := [], typeValToStruct := []
    teAvtab := avtabInit
    roleTr := hashtabZero
    filenameTransTtypes := ebitmapInit
    filenameTrans := hashtabZero
    compatFilenameTransCount := 0
    boolValToStruct := []
    teCondAvtab := avtabInit
    condList := []
    roleAllow := []
    ocontexts := Vector.replicate 9 []
    genfs := []
    rangeTr := hashtabZero
    typeAttrMapArray := []
    policycaps := ebitmapInit
    permissiveMap := ebitmapInit
    len := 0
    policyvers := 0
    rejectUnknown := false
    allowUnknown := false
    processClass := 0
    processTransPerms := 0 }

/-- `int v = a - b` of two unsigned values. -/
def diffInt (a b : U32) : Int := (a - b).toInt

/-- `rangetr_hash`. -/
def rangetrHash (key : RangeTrans) : U32 :=
  key.sourceType + (key.targetType <<< 3) + (key.targetClass <<< 5)

/-- `rangetr_cmp`. -/
def rangetrCmp (key1 key2 : RangeTrans) : Int :=
  if diffInt key1.sourceType key2.sourceType ≠ 0 then diffInt key1.sourceType key2.sourceType
  else if diffInt key1.targetType key2.targetType ≠ 0 then
    diffInt key1.targetType key2.targetType
  else diffInt key1.targetClass key2.targetClass

def rangetrKeyParams : HashtabKeyParams RangeTrans := { hash := rangetrHash, cmp := rangetrCmp }

/-- `role_trans_hash`. -/
def roleTransHash (key : RoleTransKey) : U32 :=
  key.role + (key.type <<< 3) + (key.tclass <<< 5)

/-- `role_trans_cmp`. -/
def roleTransCmp (key1 key2 : RoleTransKey) : Int :=
  if diffInt key1.role key2.role ≠ 0 then diffInt key1.role key2.role
  else if diffInt key1.type key2.type ≠ 0 then diffInt key1.type key2.type
  else diffInt key1.tclass key2.tclass

def roletrKeyParams : HashtabKeyParams RoleTransKey :=
  { hash := roleTransHash, cmp := roleTransCmp }

/-- `partial_name_hash` of the kernel, without a salt: `(hash + (c << 4) + (c >> 4)) * 11`. -/
def partialNameHash (c : U8) (prevhash : U64) : U64 :=
  (prevhash + (c.zeroExtend 64 <<< 4) + (c.zeroExtend 64 >>> 4)) * 11

/-- `filenametr_hash`. -/
def filenametrHash (ft : FilenameTransKey) : U32 :=
  (ft.name.foldl (fun hash focus => partialNameHash focus hash)
    ((ft.ttype ^^^ ft.tclass.zeroExtend 32).zeroExtend 64)).truncate 32

/-- `filenametr_cmp`; the classes are promoted to `int` before they are subtracted. -/
def filenametrCmp (ft1 ft2 : FilenameTransKey) : Int :=
  if diffInt ft1.ttype ft2.ttype ≠ 0 then diffInt ft1.ttype ft2.ttype
  else if (ft1.tclass.toNat : Int) - ft2.tclass.toNat ≠ 0 then
    (ft1.tclass.toNat : Int) - ft2.tclass.toNat
  else strcmp ft1.name ft2.name

def filenametrKeyParams : HashtabKeyParams FilenameTransKey :=
  { hash := filenametrHash, cmp := filenametrCmp }

section Checks

variable (p : Policydb)

/-- `policydb_filenametr_search`. -/
def policydbFilenametrSearch (key : FilenameTransKey) : Option (List FilenameTransDatum) :=
  hashtabSearch filenametrKeyParams p.filenameTrans key

/-- The range checks of `policydb_class_isvalid`, `policydb_role_isvalid` and
`policydb_type_isvalid`. -/
def valueIsvalid (nprim value : U32) : Bool := value ≠ 0 && value ≤ nprim

def policydbClassIsvalid (cls : U32) : Bool := valueIsvalid p.pClasses.nprim cls
def policydbRoleIsvalid (role : U32) : Bool := valueIsvalid p.pRoles.nprim role
def policydbTypeIsvalid (type : U32) : Bool := valueIsvalid p.pTypes.nprim type

/-- An array read `array[value - 1]`; outside the array it is an `oops`. -/
def atValue {α : Type} (array : List α) (value : U32) : Except Fault α :=
  match array[(value - 1).toNat]? with
  | some a => .ok a
  | none => .error .oops

/-- The dereference of a pointer. -/
def derefPtr {α : Type} : Option α → Except Fault α
  | some a => .ok a
  | none => .error .oops

/-- `mls_level_dom`. -/
def mlsLevelDom (l1 l2 : MlsLevel) : Bool :=
  l2.sens ≤ l1.sens && ebitmapContains l1.cat l2.cat 0

/-- `mls_level_incomp`. -/
def mlsLevelIncomp (l1 l2 : MlsLevel) : Bool := !mlsLevelDom l1 l2 && !mlsLevelDom l2 l1

/-- `mls_range_contains`. -/
def mlsRangeContains (r1 r2 : MlsRange) : Bool :=
  mlsLevelDom r2.low r1.low && mlsLevelDom r1.high r2.high

/-- `mls_level_isvalid`. -/
def mlsLevelIsvalid (l : MlsLevel) : Except Fault Bool :=
  if l.sens = 0 ∨ p.pLevels.nprim < l.sens then .ok false
  else do
    let entry ← atValue p.symValToName.levels l.sens
    let name ← derefPtr entry
    match symtabSearch p.pLevels name with
    | none => .ok false
    | some levdatum => .ok (ebitmapContains levdatum.level.cat l.cat p.pCats.nprim)

/-- `mls_range_isvalid`. -/
def mlsRangeIsvalid (r : MlsRange) : Except Fault Bool := do
  if ← mlsLevelIsvalid p r.low then
    if ← mlsLevelIsvalid p r.high then pure (mlsLevelDom r.high r.low) else pure false
  else pure false

/-- `mls_context_isvalid`. -/
def mlsContextIsvalid (c : Context) : Except Fault Bool :=
  if ¬ p.mlsEnabled then .ok true
  else do
    if ← mlsRangeIsvalid p c.range then
      if c.role = objectRVal then pure true
      else if c.user = 0 ∨ p.pUsers.nprim < c.user then pure false
      else do
        let entry ← atValue p.userValToStruct c.user
        let usrdatum ← derefPtr entry
        pure (mlsRangeContains usrdatum.range c.range)
    else pure false

/-- `policydb_context_isvalid`. -/
def policydbContextIsvalid (c : Context) : Except Fault Bool :=
  if c.role = 0 ∨ p.pRoles.nprim < c.role then .ok false
  else if c.user = 0 ∨ p.pUsers.nprim < c.user then .ok false
  else if c.type = 0 ∨ p.pTypes.nprim < c.type then .ok false
  else if c.role ≠ objectRVal then do
    match ← atValue p.roleValToStruct c.role with
    | none => pure false
    | some role =>
      if ebitmapGetBit role.types (c.type - 1).toNat then
        match ← atValue p.userValToStruct c.user with
        | none => pure false
        | some usrdatum =>
          if ebitmapGetBit usrdatum.roles (c.role - 1).toNat then mlsContextIsvalid p c
          else pure false
      else pure false
  else mlsContextIsvalid p c

/-- `string_to_security_class`, 0 if there is none. -/
def stringToSecurityClass (name : Name) : U16 :=
  match symtabSearch p.pClasses name with
  | none => 0
  | some cladatum => cladatum.value.truncate 16

/-- The permission of a class or its common by name. -/
def classPermSearch (cladatum : ClassDatum) (name : Name) : Option PermDatum :=
  let common := match cladatum.comdatum with
    | some comdatum => symtabSearch comdatum.permissions name
    | none => none
  match common with
  | some perdatum => some perdatum
  | none => symtabSearch cladatum.permissions name

/-- `string_to_av_perm`, 0 if there is none. The shift takes the low five bits of its
amount, as the machine does. -/
def stringToAvPerm (tclass : U16) (name : Name) : Except Fault U32 :=
  if tclass = 0 ∨ p.pClasses.nprim < tclass.zeroExtend 32 then .ok 0
  else do
    let entry ← atValue p.classValToStruct (tclass.zeroExtend 32)
    let cladatum ← derefPtr entry
    match classPermSearch cladatum name with
    | none => pure 0
    | some perdatum => pure (1#32 <<< ((perdatum.value - 1).toNat % 32))

end Checks

end Ksrc.Source

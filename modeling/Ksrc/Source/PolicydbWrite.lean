import Ksrc.Source.PolicydbRead

/-!
# Writing a policy database

Source: `security/selinux/ss/policydb.c` (`policydb_write` and what it calls), `avtab.c`
(`avtab_write`), `conditional.c` (`cond_write_list`).

The writers refuse versions before `POLICYDB_VERSION_AVTAB`, and leave out the version tests
below it.
-/
namespace Ksrc.Source

open Library

/-- A string, without its terminator. -/
def putStr (name : Name) : PolicyWriter := putEntry name

section Contexts

/-- `mls_write_level`. -/
def mlsLevelWrite (l : MlsLevel) : PolicyWriter :=
  ByteWriter.seq [putU32 l.sens, ebitmapWrite l.cat]

/-- `mls_write_range_helper`: one level if the two are equal. -/
def mlsWriteRangeHelper (r : MlsRange) : PolicyWriter :=
  if mlsLevelEq r.high r.low then
    ByteWriter.seq [putU32 1, putU32 r.low.sens, ebitmapWrite r.low.cat]
  else
    ByteWriter.seq [putU32 2, putU32 r.low.sens, putU32 r.high.sens, ebitmapWrite r.low.cat,
      ebitmapWrite r.high.cat]

/-- `context_write`. -/
def contextWrite (c : Context) : PolicyWriter :=
  ByteWriter.seq [putU32 c.user, putU32 c.role, putU32 c.type, mlsWriteRangeHelper c.range]

/-- `cpu_to_be64`. -/
def cpuToBe64 (x : U64) : List U8 := (cpuToLe64 x).reverse

/-- Four words in the order of the network. -/
def putAddr6 (addr : Vector U32 4) : PolicyWriter :=
  ByteWriter.each putU32 addr.toList

/-- One entry in the loop of `ocontext_write`, of the kind `i`; an entry of another kind has
nothing where it would be read. -/
def ocontextWriteOne (i : Nat) (c : Ocontext) : PolicyWriter :=
  if i = oconIsid then ByteWriter.seq [putU32 c.sid0, contextWrite c.context0]
  else
    match c.u with
    | .isid => ByteWriter.fail .oops
    | .name name =>
      if i = oconFs ∨ i = oconNetif then
        ByteWriter.seq [putCount name.length, putStr name, contextWrite c.context0,
          contextWrite c.context1]
      else if i = oconFsuse then
        ByteWriter.seq [putU32 c.v, putCount name.length, putStr name, contextWrite c.context0]
      else ByteWriter.fail .oops
    | .port protocol lowPort highPort =>
      if i = oconPort then
        ByteWriter.seq [putU32 (protocol.zeroExtend 32), putU32 (lowPort.zeroExtend 32),
          putU32 (highPort.zeroExtend 32), contextWrite c.context0]
      else ByteWriter.fail .oops
    | .node addr mask =>
      if i = oconNode then ByteWriter.seq [putU32 addr, putU32 mask, contextWrite c.context0]
      else ByteWriter.fail .oops
    | .node6 addr mask =>
      if i = oconNode6 then ByteWriter.seq [putAddr6 addr, putAddr6 mask, contextWrite c.context0]
      else ByteWriter.fail .oops
    | .ibpkey subnetPrefix lowPkey highPkey =>
      if i = oconIbpkey then
        ByteWriter.seq [putEntry (cpuToBe64 subnetPrefix), putU32 (lowPkey.zeroExtend 32),
          putU32 (highPkey.zeroExtend 32), contextWrite c.context0]
      else ByteWriter.fail .oops
    | .ibendport devName port =>
      if i = oconIbendport then
        ByteWriter.seq [putCount devName.length, putU32 (port.zeroExtend 32), putStr devName,
          contextWrite c.context0]
      else ByteWriter.fail .oops

/-- The loop of `ocontext_write` from kind `i` on, `left` kinds in all. -/
def ocontextWriteFrom (ocontexts : Vector (List Ocontext) 9) : Nat → Nat → PolicyWriter
  | 0, _ => ByteWriter.skip
  | left + 1, i =>
    ByteWriter.seq [putCount (ocontexts.getD i []).length,
      ByteWriter.each (ocontextWriteOne i) (ocontexts.getD i []),
      ocontextWriteFrom ocontexts left (i + 1)]

/-- `ocontext_write`. -/
def ocontextWrite (p : Policydb) (info : PolicydbCompatInfo) : PolicyWriter :=
  ocontextWriteFrom p.ocontexts info.oconNum 0

/-- One entry of a filesystem type in `genfs_write`. -/
def genfsWriteEntry (c : Ocontext) : PolicyWriter :=
  ByteWriter.seq [putCount c.uName.length, putStr c.uName, putU32 c.v, contextWrite c.context0]

/-- One filesystem type in `genfs_write`. -/
def genfsWriteOne (genfs : Genfs) : PolicyWriter :=
  ByteWriter.seq [putCount genfs.fstype.length, putStr genfs.fstype, putCount genfs.head.length,
    ByteWriter.each genfsWriteEntry genfs.head]

/-- `genfs_write`. -/
def genfsWrite (p : Policydb) : PolicyWriter :=
  ByteWriter.seq [putCount p.genfs.length, ByteWriter.each genfsWriteOne p.genfs]

end Contexts

section Constraints

/-- `type_set_write`. -/
def typeSetWrite (t : TypeSet) : PolicyWriter :=
  ByteWriter.seq [ebitmapWrite t.types, ebitmapWrite t.negset, putU32 t.flags]

/-- One expression in the inner loop of `write_cons_helper`. -/
def writeConsExpr (vers : U32) (e : ConstraintExpr) : PolicyWriter :=
  if e.exprType = cexprNames then
    if policydbVersionConstraintNames ≤ vers then
      match e.typeNames with
      | none => ByteWriter.fail .oops
      | some typeNames =>
        ByteWriter.seq [putU32 e.exprType, putU32 e.attr, putU32 e.op, ebitmapWrite e.names,
          typeSetWrite typeNames]
    else ByteWriter.seq [putU32 e.exprType, putU32 e.attr, putU32 e.op, ebitmapWrite e.names]
  else ByteWriter.seq [putU32 e.exprType, putU32 e.attr, putU32 e.op]

/-- One constraint of `write_cons_helper`. -/
def writeConsNode (vers : U32) (c : ConstraintNode) : PolicyWriter :=
  ByteWriter.seq [putU32 c.permissions, putCount c.expr.length,
    ByteWriter.each (writeConsExpr vers) c.expr]

/-- `write_cons_helper`. -/
def writeConsHelper (vers : U32) (node : List ConstraintNode) : PolicyWriter :=
  ByteWriter.each (writeConsNode vers) node

end Constraints

section Rules

/-- The eight words of `xperms->perms.p`. -/
def putPerms (perms : ExtendedPermsData) : PolicyWriter :=
  ByteWriter.seq [putU32 perms.p[0], putU32 perms.p[1], putU32 perms.p[2], putU32 perms.p[3],
    putU32 perms.p[4], putU32 perms.p[5], putU32 perms.p[6], putU32 perms.p[7]]

/-- `avtab_write_item`. -/
def avtabWriteItem (cur : AvtabNode) : PolicyWriter :=
  ByteWriter.seq [putU16 cur.key.sourceType, putU16 cur.key.targetType, putU16 cur.key.targetClass,
    putU16 cur.key.specified,
    if cur.key.specified &&& avtabXperms ≠ 0 then
      match cur.datum with
      | .data _ => ByteWriter.fail .oops
      | .xperms xperms =>
        ByteWriter.seq [putEntry [xperms.specified], putEntry [xperms.driver], putPerms xperms.perms]
    else putU32 cur.datum.u]

/-- `avtab_write`. -/
def avtabWrite (a : Avtab) : PolicyWriter :=
  ByteWriter.seq [putCount a.nel, ByteWriter.each avtabWriteItem a.nodes]

/-- `cond_write_av_list`. -/
def condWriteAvList (p : Policydb) (list : List Nat) : PolicyWriter :=
  ByteWriter.seq [putCount list.length,
    ByteWriter.each (fun addr =>
      match p.teCondAvtab.deref addr with
      | none => ByteWriter.fail .oops
      | some node => avtabWriteItem node) list]

/-- `cond_write_node`. -/
def condWriteNode (p : Policydb) (node : CondNode) : PolicyWriter :=
  ByteWriter.seq [putU32 node.curState, putCount node.expr.length,
    ByteWriter.each (fun e : CondExprNode => ByteWriter.seq [putU32 e.exprType, putU32 e.boolean])
      node.expr,
    condWriteAvList p node.trueList, condWriteAvList p node.falseList]

/-- `cond_write_list`. -/
def condWriteList (p : Policydb) : PolicyWriter :=
  ByteWriter.seq [putCount p.condList.length, ByteWriter.each (condWriteNode p) p.condList]

end Rules

section Transitions

/-- `role_trans_write_one`. -/
def roleTransWriteOne (p : Policydb) (e : RoleTransKey × RoleTransDatum) : PolicyWriter :=
  ByteWriter.seq [putU32 e.1.role, putU32 e.1.type, putU32 e.2.newRole,
    if policydbVersionRoletrans ≤ p.policyvers then putU32 e.1.tclass else ByteWriter.skip]

/-- `role_trans_write`. -/
def roleTransWrite (p : Policydb) : PolicyWriter :=
  ByteWriter.seq [putCount p.roleTr.nel, ByteWriter.each (roleTransWriteOne p) p.roleTr.entries]

/-- `role_allow_write`. -/
def roleAllowWrite (r : List RoleAllow) : PolicyWriter :=
  ByteWriter.seq [putCount r.length,
    ByteWriter.each (fun ra : RoleAllow => ByteWriter.seq [putU32 ra.role, putU32 ra.newRole]) r]

/-- `range_write_helper`. -/
def rangeWriteHelper (p : Policydb) (e : RangeTrans × MlsRange) : PolicyWriter :=
  ByteWriter.seq [putU32 e.1.sourceType, putU32 e.1.targetType,
    if policydbVersionRangetrans ≤ p.policyvers then putU32 e.1.targetClass else ByteWriter.skip,
    mlsWriteRangeHelper e.2]

/-- `range_write`. -/
def rangeWrite (p : Policydb) : PolicyWriter :=
  ByteWriter.seq [putCount p.rangeTr.nel, ByteWriter.each (rangeWriteHelper p) p.rangeTr.entries]

/-- One source type in `filename_write_helper_compat`. -/
def filenameWriteCompat (ft : FilenameTransKey) (otype bit : U32) : PolicyWriter :=
  ByteWriter.seq [putCount ft.name.length, putStr ft.name, putU32 (bit + 1), putU32 ft.ttype,
    putU32 (ft.tclass.zeroExtend 32), putU32 otype]

/-- `filename_write_helper_compat`. -/
def filenameWriteHelperCompat (e : FilenameTransKey × List FilenameTransDatum) : PolicyWriter :=
  ByteWriter.each (fun datum : FilenameTransDatum =>
    ByteWriter.each (filenameWriteCompat e.1 datum.otype) (ebitmapPositiveBits datum.stypes)) e.2

/-- `filename_write_helper`. -/
def filenameWriteHelper (e : FilenameTransKey × List FilenameTransDatum) : PolicyWriter :=
  ByteWriter.seq [putCount e.1.name.length, putStr e.1.name, putU32 e.1.ttype,
    putU32 (e.1.tclass.zeroExtend 32), putCount e.2.length,
    ByteWriter.each (fun datum : FilenameTransDatum =>
      ByteWriter.seq [ebitmapWrite datum.stypes, putU32 datum.otype]) e.2]

/-- `filename_trans_write`. -/
def filenameTransWrite (p : Policydb) : PolicyWriter :=
  if p.policyvers < policydbVersionFilenameTrans then ByteWriter.skip
  else if p.policyvers < policydbVersionCompFtrans then
    ByteWriter.seq [putU32 p.compatFilenameTransCount,
      ByteWriter.each filenameWriteHelperCompat p.filenameTrans.entries]
  else
    ByteWriter.seq [putCount p.filenameTrans.nel,
      ByteWriter.each filenameWriteHelper p.filenameTrans.entries]

end Transitions

end Ksrc.Source

import Ksrc.Library.Fields
import Ksrc.Source.PolicydbRead

/-!
# Context strings

Source: `security/selinux/ss/services.c` (`context_struct_to_string`,
`string_to_context_struct`, `security_context_to_sid_core`, `services_convert_context`), `mls.c`
(`mls_compute_context_len`, `mls_sid_to_context`, `mls_context_to_sid`, `mls_convert_context`).

The parser writes a terminator over each separator it finds. What is parsed is the buffer from
a position on, and each function gives it back as it leaves it.
-/
namespace Ksrc.Source

open Library

def colon : U8 := 58
def comma : U8 := 44
def dash : U8 := 45
def dot : U8 := 46

/-- `SECSID_NULL`. -/
def secsidNull : U32 := 0

/-- `sym_name` of a value: outside the array and for a `NULL` entry it is an `oops`. -/
def symName (names : List (Option Name)) (value : U32) : Except Fault Name := do
  let entry ← atValue names value
  derefPtr entry

section Printing

variable (p : Policydb)

/-- The close of a run of categories that ends with `prev`. -/
def mlsSidToContextClose (head prev : Int) : Except Fault (List U8) :=
  if prev ≠ head then do
    let name ← symName p.symValToName.cats (BitVec.ofInt 32 prev + 1)
    pure ((if prev - head > 1 then dot else comma) :: name)
  else pure []

/-- The loop over the categories of a level in `mls_sid_to_context`: what it writes. -/
def mlsSidToContextCats : List U32 → Int → Int → Except Fault (List U8)
  | [], head, prev => mlsSidToContextClose p head prev
  | i :: rest, head, prev =>
    if i.toInt - prev > 1 then do
      -- one or more negative bits are skipped
      let close ← mlsSidToContextClose p head prev
      let name ← symName p.symValToName.cats (i + 1)
      let later ← mlsSidToContextCats rest i.toInt i.toInt
      pure (close ++ (if prev < 0 then colon else comma) :: name ++ later)
    else mlsSidToContextCats rest head i.toInt

/-- One level in `mls_sid_to_context`. -/
def mlsSidToContextLevel (l : MlsLevel) : Except Fault (List U8) := do
  let sens ← symName p.symValToName.levels l.sens
  let cats ← mlsSidToContextCats p (ebitmapPositiveBits l.cat) (-2) (-2)
  pure (sens ++ cats)

/-- `mls_sid_to_context`. -/
def mlsSidToContext (context : Context) : Except Fault (List U8) :=
  if ¬ p.mlsEnabled then .ok []
  else do
    let low ← mlsSidToContextLevel p context.range.low
    if mlsLevelEq context.range.low context.range.high then pure (colon :: low)
    else do
      let high ← mlsSidToContextLevel p context.range.high
      pure (colon :: low ++ dash :: high)

/-- The loop over the categories in `mls_compute_context_len`. -/
def mlsComputeCatsLen : List U32 → Int → Int → Except Fault Nat
  | [], head, prev =>
    if prev ≠ head then do
      let name ← symName p.symValToName.cats (BitVec.ofInt 32 prev + 1)
      pure (name.length + 1)
    else pure 0
  | i :: rest, head, prev =>
    if i.toInt - prev > 1 then do
      let close ← if head ≠ prev then do
          let name ← symName p.symValToName.cats (BitVec.ofInt 32 prev + 1)
          pure (name.length + 1)
        else pure 0
      let name ← symName p.symValToName.cats (i + 1)
      let later ← mlsComputeCatsLen rest i.toInt i.toInt
      pure (close + (name.length + 1) + later)
    else mlsComputeCatsLen rest head i.toInt

def mlsComputeLevelLen (l : MlsLevel) : Except Fault Nat := do
  let sens ← symName p.symValToName.levels l.sens
  let cats ← mlsComputeCatsLen p (ebitmapPositiveBits l.cat) (-2) (-2)
  pure (sens.length + cats)

/-- `mls_compute_context_len`. -/
def mlsComputeContextLen (context : Context) : Except Fault Nat :=
  if ¬ p.mlsEnabled then .ok 0
  else do
    let low ← mlsComputeLevelLen p context.range.low
    if mlsLevelEq context.range.low context.range.high then pure (1 + low)
    else do
      let high ← mlsComputeLevelLen p context.range.high
      pure (1 + low + 1 + high)

/-- `context_struct_to_string`: the string without its terminator, and `*scontext_len`. -/
def contextStructToString (context : Context) : Except Fault (List U8 × Nat) :=
  match context.str with
  | some str => .ok (str, context.len)
  | none => do
    let user ← symName p.symValToName.users context.user
    let role ← symName p.symValToName.roles context.role
    let type ← symName p.symValToName.types context.type
    let mlsLen ← mlsComputeContextLen p context
    let mls ← mlsSidToContext p context
    pure (user ++ colon :: role ++ colon :: type ++ mls,
      (user.length + 1) + (role.length + 1) + (type.length + 1) + mlsLen)

end Printing

section Parsing

variable {ρ : Type}

/-- The buffer behind a field that the parser has terminated. -/
def terminate (field : List U8) (rest : ρ × List U8) : ρ × List U8 :=
  (rest.1, field ++ 0 :: rest.2)

variable (pol : Policydb)

/-- One category or range of categories in `mls_context_to_sid`. -/
def mlsContextToSidCat (curCat : List U8) (cat : Ebitmap) : Except Fault Ebitmap × List U8 :=
  match cut 0 dot curCat with
  | none =>
    match symtabSearch pol.pCats (cString curCat) with
    | none => (.error einval, curCat)
    | some catdatum => (.ok (ebitmapSetBit cat (catdatum.value - 1).toNat true), curCat)
  | some (curCat, rngptr) => terminate curCat <|
    match symtabSearch pol.pCats curCat with
    | none => (.error einval, rngptr)
    | some catdatum =>
      let cat := ebitmapSetBit cat (catdatum.value - 1).toNat true
      match symtabSearch pol.pCats (cString rngptr) with
      | none => (.error einval, rngptr)
      | some rngdatum =>
        if rngdatum.value ≤ catdatum.value then (.error einval, rngptr)
        else
          (.ok ((List.range' catdatum.value.toNat (rngdatum.value.toNat - catdatum.value.toNat)).foldl
            (fun cat i => ebitmapSetBit cat i true) cat), rngptr)

/-- The loop over the category set, for at most as many turns as there are bytes. -/
def mlsContextToSidCats : Nat → List U8 → Ebitmap → Except Fault Ebitmap × List U8
  | 0, nextCat, _ => (.error einval, nextCat)
  | turns + 1, nextCat, cat =>
    match cut 0 comma nextCat with
    | none => mlsContextToSidCat pol nextCat cat
    | some (curCat, nextCat) =>
      match mlsContextToSidCat pol curCat cat with
      | (.error e, curCat) => terminate curCat (.error e, nextCat)
      | (.ok cat, curCat) => terminate curCat (mlsContextToSidCats turns nextCat cat)

/-- One part of the range in `mls_context_to_sid`. -/
def mlsContextToSidLevel (sensitivity : List U8) : Except Fault MlsLevel × List U8 :=
  match cut 0 colon sensitivity with
  | none =>
    match symtabSearch pol.pLevels (cString sensitivity) with
    | none => (.error einval, sensitivity)
    | some levdatum => (.ok { sens := levdatum.level.sens, cat := ebitmapInit }, sensitivity)
  | some (sensitivity, nextCat) => terminate sensitivity <|
    match symtabSearch pol.pLevels sensitivity with
    | none => (.error einval, nextCat)
    | some levdatum =>
      match mlsContextToSidCats pol (nextCat.length + 1) nextCat ebitmapInit with
      | (.error e, nextCat) => (.error e, nextCat)
      | (.ok cat, nextCat) => (.ok { sens := levdatum.level.sens, cat }, nextCat)

/-- `mls_context_to_sid`. -/
def mlsContextToSid (oldc : U8) (scontext : List U8) (context : Context) (s : Option Sidtab)
    (defSid : U32) : Except Fault Context × List U8 :=
  if ¬ pol.mlsEnabled then
    if oldc ≠ 0 ∧ defSid = secsidNull then (.error einval, scontext) else (.ok context, scontext)
  else if oldc = 0 then
    if defSid = secsidNull then (.error einval, scontext)
    else
      match s with
      | none => (.error .oops, scontext)
      | some s =>
        match sidtabSearch s defSid with
        | .error e => (.error e, scontext)
        | .ok none => (.error einval, scontext)
        | .ok (some defcon) => (.ok { context with range := defcon.range }, scontext)
  else
    match cut 0 dash scontext with
    | none =>
      match mlsContextToSidLevel pol scontext with
      | (.error e, scontext) => (.error e, scontext)
      | (.ok level, scontext) => (.ok { context with range := ⟨level, level⟩ }, scontext)
    | some (low, high) =>
      match mlsContextToSidLevel pol low with
      | (.error e, low) => terminate low (.error e, high)
      | (.ok level, low) => terminate low <|
        match mlsContextToSidLevel pol high with
        | (.error e, high) => (.error e, high)
        | (.ok level', high) => (.ok { context with range := ⟨level, level'⟩ }, high)

/-- `string_to_context_struct` from the type on; `rest` is behind the colon of the type. -/
def stringToContextType (sidtabp : Option Sidtab) (ctx : Context) (defSid : U32) (type : Name)
    (oldc : U8) (rest : List U8) : Except Fault Context × List U8 :=
  match symtabSearch pol.pTypes type with
  | none => (.error einval, rest)
  | some typdatum =>
    if typdatum.isAttribute ≠ 0 then (.error einval, rest)
    else
      match mlsContextToSid pol oldc rest { ctx with type := typdatum.value } sidtabp defSid with
      | (.error e, rest) => (.error e, rest)
      | (.ok ctx, rest) =>
        match policydbContextIsvalid pol ctx with
        | .error e => (.error e, rest)
        | .ok false => (.error einval, rest)
        | .ok true => (.ok ctx, rest)

/-- `string_to_context_struct`. -/
def stringToContextStruct (sidtabp : Option Sidtab) (scontext : List U8) (defSid : U32) :
    Except Fault Context × List U8 :=
  match cut 0 colon scontext with
  | none => (.error einval, scontext)
  | some (user, p) => terminate user <|
    match symtabSearch pol.pUsers user with
    | none => (.error einval, p)
    | some usrdatum =>
      match cut 0 colon p with
      | none => (.error einval, p)
      | some (role, p) => terminate role <|
        match symtabSearch pol.pRoles role with
        | none => (.error einval, p)
        | some roledatum =>
          let ctx := { contextInit with user := usrdatum.value, role := roledatum.value }
          match cut 0 colon p with
          | none => ((stringToContextType pol sidtabp ctx defSid (cString p) 0 []).1, p)
          | some (type, rest) =>
            terminate type (stringToContextType pol sidtabp ctx defSid type colon rest)

end Parsing

section ContextToSid

/-- `initial_sid_to_string`. -/
def initialSidToString : List (Option Name) :=
  [none, some (cstr ['k', 'e', 'r', 'n', 'e', 'l']),
    some (cstr ['s', 'e', 'c', 'u', 'r', 'i', 't', 'y']),
    some (cstr ['u', 'n', 'l', 'a', 'b', 'e', 'l', 'e', 'd']), none,
    some (cstr ['f', 'i', 'l', 'e']), none, none,
    some (cstr ['a', 'n', 'y', '_', 's', 'o', 'c', 'k', 'e', 't']),
    some (cstr ['p', 'o', 'r', 't']), some (cstr ['n', 'e', 't', 'i', 'f']),
    some (cstr ['n', 'e', 't', 'm', 's', 'g']), some (cstr ['n', 'o', 'd', 'e']),
    none, none, none, none, none, none, none, none, none, none, none, none, none, none,
    some (cstr ['d', 'e', 'v', 'n', 'u', 'l', 'l'])]

/-- `SECINITSID_KERNEL`. -/
def secinitsidKernel : Nat := 1

/-- What one turn of the loop under `retry` finds: the policy of the moment, the table with the
target of its live conversion, free memory, and what `services_convert_context` makes of a
context, which fails only for want of memory. -/
structure ContextToSidPass where
  policydb : Policydb
  sidtab : Sidtab
  target : Sidtab
  allocs : List Bool
  targetAllocs : List Bool
  fault : Option Context
  converted : Context → Option Context

namespace ContextToSidPass

/-- `sidtab_context_to_sid`, with its answer and the table after it. -/
def sidtabContextToSid (pass : ContextToSidPass) (j : Jhash) (context : Context) :
    Option (Except Errno U32 × Sidtab) :=
  let converted := match pass.converted context with
    | some converted => .ok converted
    | none => .error (.ENOMEM, contextInit)
  (Source.sidtabContextToSid j pass.sidtab pass.target context pass.allocs pass.targetAllocs
    pass.fault converted).map fun done => (done.1, done.2.1)

end ContextToSidPass

/-- How a turn of the loop ends: with a return code and the table in use, with `-ESTALE` and the
buffer as the parser has left it, or not at all. -/
inductive PassEnd where
  | returns (rc : Except Errno U32) (sidtab : Sidtab)
  | retry (scontext2 : List U8)
  | crash

/-- `rc == -EINVAL && force`; `str` is the copy of the string that `force` makes. -/
def contextOrString (parsed : Except Fault Context) (str : Option (List U8)) : Except Fault Context :=
  match parsed, str with
  | .error (.err .EINVAL), some str => .ok { contextInit with str := some str }
  | parsed, _ => parsed

variable (j : Jhash) (defSid : U32) (str : Option (List U8))

/-- One turn of the loop of `security_context_to_sid_core`. -/
def contextToSidPass (pass : ContextToSidPass) (scontext2 : List U8) : PassEnd :=
  match stringToContextStruct pass.policydb (some pass.sidtab) scontext2 defSid with
  | (parsed, scontext2) =>
    match contextOrString parsed str with
    | .error .oops => .crash
    | .error (.err e) => .returns (.error e) pass.sidtab
    | .ok context =>
      match pass.sidtabContextToSid j context with
      | none => .crash
      | some (.error .ESTALE, _) => .retry scontext2
      | some (rc, sidtab) => .returns rc sidtab

/-- The loop, over the turns it takes. -/
def contextToSidLoop : List ContextToSidPass → List U8 → PassEnd
  | [], scontext2 => .retry scontext2
  | pass :: later, scontext2 =>
    match contextToSidPass j defSid str pass scontext2 with
    | .retry scontext2 => contextToSidLoop later scontext2
    | done => done

/-- The search for a name before the first policy is loaded. -/
def initialSid (name : Name) : U32 :=
  match (List.range' 1 (secinitsidNum - 1)).find? fun i => initialSidToString[i]? == some (some name) with
  | some i => BitVec.ofNat 32 i
  | none => BitVec.ofNat 32 secinitsidKernel

/-- `security_context_to_sid_core`; without a policy the table is the one that will be used. -/
def securityContextToSidCore (initialized : Bool) (sidtab : Sidtab) (passes : List ContextToSidPass)
    (scontext : List U8) (defSid : U32) (force : Bool) : PassEnd :=
  if scontext = [] then .returns (.error .EINVAL) sidtab
  else if ¬ initialized then .returns (.ok (initialSid (cString scontext))) sidtab
  else
    let str := if force then some (cString scontext) else none
    contextToSidLoop j defSid str passes scontext

end ContextToSid

section Converting

variable (oldp newp : Policydb)

/-- The categories of a level in `mls_convert_context`. -/
def mlsConvertCats : List U32 → Ebitmap → Except Fault Ebitmap
  | [], cat => .ok cat
  | i :: rest, cat => do
    let name ← symName oldp.symValToName.cats (i + 1)
    match symtabSearch newp.pCats name with
    | none => .error einval
    | some catdatum => mlsConvertCats rest (ebitmapSetBit cat (catdatum.value - 1).toNat true)

/-- One level in `mls_convert_context`. -/
def mlsConvertLevel (l : MlsLevel) : Except Fault MlsLevel := do
  let name ← symName oldp.symValToName.levels l.sens
  match symtabSearch newp.pLevels name with
  | none => .error einval
  | some levdatum => do
    let cat ← mlsConvertCats oldp newp (ebitmapPositiveBits l.cat) ebitmapInit
    pure { sens := levdatum.level.sens, cat }

/-- `mls_convert_context`, into a context that has no range yet. -/
def mlsConvertContext (oldc newc : Context) : Except Fault Context :=
  if ¬ oldp.mlsEnabled ∨ ¬ newp.mlsEnabled then .ok newc
  else do
    let low ← mlsConvertLevel oldp newp oldc.range.low
    let high ← mlsConvertLevel oldp newp oldc.range.high
    pure { newc with range := ⟨low, high⟩ }

/-- The MLS fields in `services_convert_context`. -/
def convertMlsFields (oldc newc : Context) : Except Fault Context :=
  if oldp.mlsEnabled ∧ newp.mlsEnabled then mlsConvertContext oldp newp oldc newc
  else if ¬ oldp.mlsEnabled ∧ newp.mlsEnabled then
    match (newp.ocontexts.get ⟨oconIsid, by decide⟩).find?
        fun oc => oc.sid0 == BitVec.ofNat 32 secinitsidUnlabeled with
    | none => .error einval
    | some oc => .ok { newc with range := oc.context0.range }
  else .ok newc

/-- `services_convert_context` of a mapped context up to its validity; all errors go to `bad`. -/
def convertFields (oldc : Context) : Except Fault Context := do
  let user ← symName oldp.symValToName.users oldc.user
  match symtabSearch newp.pUsers user with
  | none => .error einval
  | some usrdatum =>
    let role ← symName oldp.symValToName.roles oldc.role
    match symtabSearch newp.pRoles role with
    | none => .error einval
    | some roledatum =>
      let type ← symName oldp.symValToName.types oldc.type
      match symtabSearch newp.pTypes type with
      | none => .error einval
      | some typdatum =>
        convertMlsFields oldp newp oldc
          { contextInit with user := usrdatum.value, role := roledatum.value, type := typdatum.value }

/-- `convert_context_handle_invalid_context`. -/
def convertContextHandleInvalidContext (enforcing : Bool) (context : Context) : Except Fault Unit :=
  if enforcing then .error einval
  else
    -- the string goes to the log
    match contextStructToString oldp context with
    | .error .oops => .error .oops
    | _ => .ok ()

/-- A mapped context in `services_convert_context`, before `bad`. -/
def convertMapped (enforcing : Bool) (oldc : Context) : Except Fault Context := do
  let newc ← convertFields oldp newp oldc
  if ← policydbContextIsvalid newp newc then pure newc
  else do
    convertContextHandleInvalidContext oldp enforcing oldc
    pure newc

/-- `services_convert_context`, with memory for its strings. -/
def servicesConvertContext (enforcing : Bool) (oldc : Context) : Except Fault Context :=
  match oldc.str with
  | some str =>
    match (stringToContextStruct newp none str secsidNull).1 with
    | .error (.err .EINVAL) =>
      -- the string is copied again from the old context
      .ok { contextInit with str := some str }
    | .error e => .error e
    | .ok newc => .ok newc
  | none =>
    match convertMapped oldp newp enforcing oldc with
    | .ok newc => .ok newc
    | .error .oops => .error .oops
    | .error (.err _) => do
      let (s, _) ← contextStructToString oldp oldc
      pure { contextInit with str := some s }

end Converting

end Ksrc.Source

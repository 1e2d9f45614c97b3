import Ksrc.Source.Conditional

/-!
# Changing the booleans

Source: `security/selinux/ss/conditional.c` (`cond_policydb_dup` and what it calls),
`hashtab.c` (`hashtab_duplicate`), `services.c` (`security_set_bools`, `security_get_bools`,
`security_preserve_bools`). Allocations succeed. The array of booleans that
`duplicate_policydb_bools` allocates is not zeroed; an entry nothing is stored in is `none` here,
and following it a fault.
-/
namespace Ksrc.Source

/-- `hashtab_duplicate`. -/
def hashtabDuplicate {κ δ : Type} (copy : κ × δ → κ × δ) (orig : Hashtab κ δ) : Hashtab κ δ :=
  { htable := orig.htable.map (·.map copy), nel := orig.entries.length }

/-- `cond_bools_index`. -/
def condBoolsIndex (key : Name) (datum : CondBoolDatum) (array : List (Option Name)) :
    Except Fault (List (Option Name)) :=
  .ok (array.set (datum.value - 1).toNat (some key))

/-- `duplicate_policydb_bools`. -/
def duplicatePolicydbBools (newdb orig : Policydb) : Except Fault Policydb :=
  let table := hashtabDuplicate (fun orig => orig) orig.pBools.table
  match hashtabMap condBoolsIndex table.entries (List.replicate orig.pBools.nprim.toNat none) with
  | .error e => .error e
  | .ok boolValToStruct =>
    .ok { newdb with pBools := { table, nprim := orig.pBools.nprim }, boolValToStruct }

/-- `avtab_alloc_dup`. -/
def avtabAllocDup (orig : Avtab) : Avtab :=
  { htable := List.replicate orig.nslot [], nel := 0 }

/-- The loop of `cond_dup_av_list`: the nodes at the addresses of the list are inserted in `avtab`,
which becomes the new table. -/
def condDupAvList (origTable : Avtab) : List Nat → Avtab → Except Fault (Avtab × List Nat)
  | [], avtab => .ok (avtab, [])
  | addr :: orig, avtab =>
    match origTable.deref addr with
    | none => .error .oops
    | some node =>
      match avtabInsertNonunique avtab node.key node.datum with
      | none => .error (.err .ENOMEM)
      | some (avtab, new) =>
        match condDupAvList origTable orig avtab with
        | .error e => .error e
        | .ok (avtab, list) => .ok (avtab, new :: list)

/-- One conditional in the loop of `duplicate_policydb_cond_list`. -/
def duplicateCondNode (origTable : Avtab) (orign : CondNode) (avtab : Avtab) :
    Except Fault (Avtab × CondNode) :=
  match condDupAvList origTable orign.trueList avtab with
  | .error e => .error e
  | .ok (avtab, trueList) =>
    match condDupAvList origTable orign.falseList avtab with
    | .error e => .error e
    | .ok (avtab, falseList) => .ok (avtab, { orign with trueList, falseList })

/-- The loop of `duplicate_policydb_cond_list`. -/
def duplicateCondNodes (origTable : Avtab) :
    List CondNode → Avtab → Except Fault (Avtab × List CondNode)
  | [], avtab => .ok (avtab, [])
  | orign :: rest, avtab =>
    match duplicateCondNode origTable orign avtab with
    | .error e => .error e
    | .ok (avtab, newn) =>
      match duplicateCondNodes origTable rest avtab with
      | .error e => .error e
      | .ok (avtab, list) => .ok (avtab, newn :: list)

/-- `duplicate_policydb_cond_list`. -/
def duplicatePolicydbCondList (newp origp : Policydb) : Except Fault Policydb :=
  match duplicateCondNodes origp.teCondAvtab origp.condList (avtabAllocDup origp.teCondAvtab) with
  | .error e => .error e
  | .ok (teCondAvtab, condList) => .ok { newp with teCondAvtab, condList }

/-- `cond_policydb_dup`, into a copy of the whole structure. -/
def condPolicydbDup (orig : Policydb) : Except Fault Policydb :=
  let new := { orig with boolValToStruct := [], condList := [], teCondAvtab := avtabInit }
  match duplicatePolicydbBools new orig with
  | .error e => .error e
  | .ok new => duplicatePolicydbCondList new orig

/-- The symbol table after `booldatum->state = state` of the boolean of that name. -/
def boolSetState (bools : Symtab CondBoolDatum) (name : Name) (state : U32) : Symtab CondBoolDatum :=
  let set (e : Name × CondBoolDatum) : Name × CondBoolDatum :=
    if e.1 = name then (e.1, { e.2 with state }) else e
  { bools with table := { bools.table with htable := bools.table.htable.map (·.map set) } }

/-- The loop of `security_set_bools` that updates the states; `i` runs over the values. -/
def setBoolStates : List U32 → Nat → Policydb → Except Fault Policydb
  | [], _, p => .ok p
  | value :: values, i, p =>
    match p.boolValToStruct[i]? with
    | some (some name) =>
      let state : U32 := if value = 0 then 0 else 1
      setBoolStates values (i + 1) { p with pBools := boolSetState p.pBools name state }
    | _ => .error .oops

/-- `security_set_bools`, on the policy that is loaded. -/
def securitySetBools (oldpolicy : Policydb) (values : List U32) : Except Fault Policydb :=
  if values.length ≠ oldpolicy.pBools.nprim.toNat then .error einval
  else
    match condPolicydbDup oldpolicy with
    | .error e => .error e
    | .ok newpolicy =>
      match setBoolStates values 0 newpolicy with
      | .error e => .error e
      | .ok newpolicy => evaluateCondNodes newpolicy

/-- The loop of `security_get_bools` over the values from `i` on. -/
def getBoolStates (p : Policydb) : Nat → Nat → Except Fault (List (Name × U32))
  | 0, _ => .ok []
  | left + 1, i => do
    let state ← condBoolState p (BitVec.ofNat 32 i + 1)
    let entry ← atValue p.symValToName.bools (BitVec.ofNat 32 i + 1)
    let name ← derefPtr entry
    let others ← getBoolStates p left (i + 1)
    pure ((name, state) :: others)

/-- `security_get_bools`: the names and the states. -/
def securityGetBools (p : Policydb) : Except Fault (List (Name × U32)) :=
  getBoolStates p p.pBools.nprim.toNat 0

/-- One boolean in the loop of `security_preserve_bools`. -/
def preserveBool (bools : Symtab CondBoolDatum) (kept : Name × U32) : Symtab CondBoolDatum :=
  match symtabSearch bools kept.1 with
  | none => bools
  | some _ => boolSetState bools kept.1 kept.2

/-- `security_preserve_bools`. -/
def securityPreserveBools (oldpolicy newpolicy : Policydb) : Except Fault Policydb :=
  match securityGetBools oldpolicy with
  | .error e => .error e
  | .ok kept =>
    evaluateCondNodes { newpolicy with pBools := kept.foldl preserveBool newpolicy.pBools }

end Ksrc.Source

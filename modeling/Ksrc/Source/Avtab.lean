import Ksrc.Source.PolicyFile

/-!
# Access vector tables

Source: `security/selinux/ss/avtab.h`, `avtab.c`. A slot is a chain of nodes. The address
of a node is the number of nodes its table had when it was allocated; no node leaves a
table that is in use.
-/
namespace Ksrc.Source

open Library

def avtabAllowed : U16 := 0x0001
def avtabAuditallow : U16 := 0x0002
def avtabAuditdeny : U16 := 0x0004
def avtabAv : U16 := avtabAllowed ||| avtabAuditallow ||| avtabAuditdeny
def avtabTransition : U16 := 0x0010
def avtabMember : U16 := 0x0020
def avtabChange : U16 := 0x0040
def avtabType : U16 := avtabTransition ||| avtabMember ||| avtabChange
def avtabXpermsAllowed : U16 := 0x0100
def avtabXpermsAuditallow : U16 := 0x0200
def avtabXpermsDontaudit : U16 := 0x0400
def avtabXperms : U16 := avtabXpermsAllowed ||| avtabXpermsAuditallow ||| avtabXpermsDontaudit
def avtabEnabledOld : U32 := 0x80000000
def avtabEnabled : U16 := 0x8000

def avtabXpermsIoctlfunction : U8 := 0x01
def avtabXpermsIoctldriver : U8 := 0x02

def maxAvtabHashBuckets : Nat := 65536

structure AvtabKey where
  sourceType : U16
  targetType : U16
  targetClass : U16
  specified : U16
  deriving DecidableEq, Repr

structure AvtabExtendedPerms where
  specified : U8
  driver : U8
  perms : ExtendedPermsData
  deriving DecidableEq, Repr

/-- The union of `struct avtab_datum`; `key.specified` tells which member is in use. -/
inductive AvtabDatum where
  | data (data : U32)
  | xperms (xperms : AvtabExtendedPerms)
  deriving DecidableEq, Repr

namespace AvtabDatum

/-- `u.data`, where the source reads it of a rule that is not an extended one. -/
def u : AvtabDatum → U32
  | .data d => d
  | .xperms _ => 0

end AvtabDatum

structure AvtabNode where
  addr : Nat
  key : AvtabKey
  datum : AvtabDatum
  deriving DecidableEq, Repr

/-- `struct avtab`; `nslot` is the number of chains and `mask` is `nslot - 1`. -/
structure Avtab where
  htable : List (List AvtabNode)
  nel : Nat
  deriving DecidableEq, Repr

namespace Avtab

def nslot (h : Avtab) : Nat := h.htable.length

/-- The nodes in the order `avtab_write` visits them. -/
def nodes (h : Avtab) : List AvtabNode := h.htable.flatten

/-- The node at an address. -/
def deref (h : Avtab) (addr : Nat) : Option AvtabNode := h.nodes.find? (·.addr == addr)

end Avtab

/-- `mix` of `avtab_hash`. -/
def avtabMix (hash : U32) (input : U16) : U32 :=
  let v : U32 := input.zeroExtend 32 * 0xcc9e2d51
  let v := v <<< 15 ||| v >>> 17
  let hash := hash ^^^ (v * 0x1b873593)
  (hash <<< 13 ||| hash >>> 19) * 5 + 0xe6546b64

/-- `avtab_hash`. -/
def avtabHash (key : AvtabKey) (mask : U32) : U32 :=
  let hash := avtabMix (avtabMix (avtabMix 0 key.targetClass) key.targetType) key.sourceType
  let hash := (hash ^^^ hash >>> 16) * 0x85ebca6b
  let hash := (hash ^^^ hash >>> 13) * 0xc2b2ae35
  (hash ^^^ hash >>> 16) &&& mask

/-- The slot of a key. -/
def avtabSlot (h : Avtab) (key : AvtabKey) : Nat :=
  (avtabHash key (BitVec.ofNat 32 (h.nslot - 1))).toNat

/-- `key->specified & ~(AVTAB_ENABLED|AVTAB_ENABLED_OLD)`, as a `u16`. -/
def avtabSpecified (specified : U16) : U16 := specified &&& ~~~avtabEnabled

/-- The test for a node of the key that shares a specifier with `specified`. -/
def avtabMatch (key : AvtabKey) (specified : U16) (cur : AvtabKey) : Bool :=
  key.sourceType == cur.sourceType && key.targetType == cur.targetType &&
    key.targetClass == cur.targetClass && (specified &&& cur.specified) ≠ 0

/-- The three tests that end a chain walk before a node with a greater key. -/
def avtabBefore (key cur : AvtabKey) : Bool :=
  key.sourceType < cur.sourceType ||
    (key.sourceType == cur.sourceType && key.targetType < cur.targetType) ||
    (key.sourceType == cur.sourceType && key.targetType == cur.targetType &&
      key.targetClass < cur.targetClass)

/-- The chain walk of `avtab_insert` and the link in `avtab_insert_node`. -/
def avtabChainInsert (new : AvtabNode) (specified : U16) :
    List AvtabNode → Except Fault (List AvtabNode)
  | [] => .ok [new]
  | cur :: next =>
    if avtabMatch new.key specified cur.key then
      if specified &&& avtabXperms ≠ 0 then .ok (new :: cur :: next)
      else .error (.err .EEXIST)
    else if avtabBefore new.key cur.key then .ok (new :: cur :: next)
    else
      match avtabChainInsert new specified next with
      | .error e => .error e
      | .ok next => .ok (cur :: next)

/-- `avtab_insert`. -/
def avtabInsert (h : Avtab) (key : AvtabKey) (datum : AvtabDatum) : Except Fault Avtab :=
  if h.nslot = 0 ∨ h.nel = 0xffffffff then .error einval
  else
    match avtabChainInsert { addr := h.nel, key, datum } (avtabSpecified key.specified)
        (h.htable.getD (avtabSlot h key) []) with
    | .error e => .error e
    | .ok chain => .ok { htable := h.htable.set (avtabSlot h key) chain, nel := h.nel + 1 }

/-- The chain walk of `avtab_insert_nonunique` and the link. -/
def avtabChainInsertNonunique (new : AvtabNode) (specified : U16) :
    List AvtabNode → List AvtabNode
  | [] => [new]
  | cur :: next =>
    if avtabMatch new.key specified cur.key then new :: cur :: next
    else if avtabBefore new.key cur.key then new :: cur :: next
    else cur :: avtabChainInsertNonunique new specified next

/-- `avtab_insert_nonunique`: the table and the address of the new node, `none` for `NULL`. -/
def avtabInsertNonunique (h : Avtab) (key : AvtabKey) (datum : AvtabDatum) :
    Option (Avtab × Nat) :=
  if h.nslot = 0 ∨ h.nel = 0xffffffff then none
  else
    let chain := avtabChainInsertNonunique { addr := h.nel, key, datum }
      (avtabSpecified key.specified) (h.htable.getD (avtabSlot h key) [])
    some ({ htable := h.htable.set (avtabSlot h key) chain, nel := h.nel + 1 }, h.nel)

/-- The chain walk of `avtab_search_node` and `avtab_search_node_next`: the first match
and the chain behind it. -/
def avtabChainSearch (key : AvtabKey) (specified : U16) :
    List AvtabNode → Option (AvtabNode × List AvtabNode)
  | [] => none
  | cur :: next =>
    if avtabMatch key specified cur.key then some (cur, next)
    else if avtabBefore key cur.key then none
    else avtabChainSearch key specified next

/-- `avtab_search_node`, with the chain its node's `next` leads to. -/
def avtabSearchNode (h : Avtab) (key : AvtabKey) : Option (AvtabNode × List AvtabNode) :=
  if h.nslot = 0 then none
  else avtabChainSearch key (avtabSpecified key.specified) (h.htable.getD (avtabSlot h key) [])

/-- `avtab_search_node_next`; `next` is the chain behind the node. -/
def avtabSearchNodeNext (node : AvtabNode) (next : List AvtabNode) (specified : U16) :
    Option (AvtabNode × List AvtabNode) :=
  avtabChainSearch node.key (avtabSpecified specified) next

/-- The nodes a loop `for (node = avtab_search_node(...); node; node =
avtab_search_node_next(node, specified))` visits from `found` on; `fuel` bounds the chain. -/
def avtabWalk (specified : U16) : Nat → Option (AvtabNode × List AvtabNode) → List AvtabNode
  | _, none => []
  | 0, some (node, _) => [node]
  | fuel + 1, some (node, next) =>
    node :: avtabWalk specified fuel (avtabSearchNodeNext node next specified)

/-- The nodes such a loop visits for a key. -/
def avtabMatches (h : Avtab) (key : AvtabKey) : List AvtabNode :=
  avtabWalk key.specified (h.htable.getD (avtabSlot h key) []).length (avtabSearchNode h key)

/-- `avtab_init`. -/
def avtabInit : Avtab := { htable := [], nel := 0 }

/-- The loop that counts the bits of `nrules >> 3` in `avtab_alloc`. -/
def avtabAllocShift (nrules : U32) : Nat :=
  if nrules >>> 3 = 0 then 1 else Nat.log2 (nrules >>> 3).toNat + 2

/-- `avtab_alloc` of a table fresh from `avtab_init`. -/
def avtabAlloc (nrules : U32) : Avtab :=
  if nrules = 0 then avtabInit
  else
    let nslot := 2 ^ avtabAllocShift nrules
    { htable := List.replicate (if maxAvtabHashBuckets < nslot then maxAvtabHashBuckets else nslot) []
      nel := 0 }

/-- `spec_order`. -/
def specOrder : List U16 :=
  [avtabAllowed, avtabAuditdeny, avtabAuditallow, avtabTransition, avtabChange, avtabMember,
    avtabXpermsAllowed, avtabXpermsAuditallow, avtabXpermsDontaudit]

end Ksrc.Source

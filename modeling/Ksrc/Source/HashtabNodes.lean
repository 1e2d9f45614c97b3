import Ksrc.Library.Heap
import Ksrc.Source.Hashtab

/-!
# Hash tables as nodes in memory

Source: `security/selinux/ss/hashtab.h` (`hashtab_insert`, `hashtab_search`) and `hashtab.c`
(`hashtab_init`, `__hashtab_insert`, `hashtab_duplicate`). Nodes are objects of
`hashtab_node_cachep` at addresses, linked by their `next` pointers. A function that would follow
a pointer to no node, or never return, has no result.
-/
namespace Ksrc.Source

open Library

variable {κ δ σ : Type}

/-- `struct hashtab_node`. -/
structure HashtabNode (κ δ : Type) where
  key : κ
  datum : δ
  next : Option Nat
  deriving DecidableEq, Repr

/-- `struct hashtab` with the array that `htable` points at. -/
structure HashtabObject where
  htable : List (Option Nat)
  size : U32
  nel : U32
  deriving DecidableEq, Repr

/-- A zeroed `struct hashtab`. -/
def HashtabObject.zero : HashtabObject := { htable := [], size := 0, nel := 0 }

/-- What an allocation does: it fails or gives out an address that is not in use. -/
structure Slab (ν : Type) where
  alloc : Heap ν → Option Nat
  unused : ∀ h a, alloc h = some a → h.get a = none

/-- The nodes of all tables and one table. -/
structure HashtabMemory (κ δ : Type) where
  nodes : Heap (HashtabNode κ δ)
  table : HashtabObject

/-- `hashtab_init`; `allocated` tells whether `kcalloc` got its memory. -/
def hashtabObjectInit (nelHint : U32) (allocated : Bool) : Except Fault HashtabObject :=
  let size := hashtabComputeSize nelHint
  if size = 0 then .ok HashtabObject.zero
  else if hashtabMaxSize < size then .error (.err .ENOMEM)
  else if allocated then
    .ok { htable := List.replicate size none, size := BitVec.ofNat 32 size, nel := 0 }
  else .error (.err .ENOMEM)

/-- What a link holds: that of the node at `prev`, or the head of a chain where there is none. -/
def loadLink (nodes : Heap (HashtabNode κ δ)) (htable : List (Option Nat)) (i : Nat) :
    Option Nat → Option (Option Nat)
  | none => htable[i]?
  | some prev => (nodes.get prev).map HashtabNode.next

/-- Write a link. -/
def storeLink (nodes : Heap (HashtabNode κ δ)) (htable : List (Option Nat)) (i : Nat)
    (prev p : Option Nat) : Heap (HashtabNode κ δ) × List (Option Nat) :=
  match prev with
  | none => (nodes, htable.set i p)
  | some prev =>
    match nodes.get prev with
    | none => (nodes, htable)
    | some node => (nodes.set prev { node with next := p }, htable)

namespace HashtabMemory

/-- The slot of a key. -/
def slot (params : HashtabKeyParams κ) (m : HashtabMemory κ δ) (key : κ) : Nat :=
  (params.hash key &&& (m.table.size - 1)).toNat

/-- The loop of `hashtab_insert`: the last node before the place of the key. -/
def insertWalk (cmp : κ → κ → Int) (key : κ) (nodes : Heap (HashtabNode κ δ)) :
    Nat → Option Nat → Option Nat → Option (Except Fault (Option Nat))
  | 0, _, _ => none
  | _ + 1, prev, none => some (.ok prev)
  | turns + 1, prev, some cur =>
    match nodes.get cur with
    | none => none
    | some node =>
      if cmp key node.key = 0 then some (.error (.err .EEXIST))
      else if cmp key node.key < 0 then some (.ok prev)
      else insertWalk cmp key nodes turns (some cur) node.next

/-- `__hashtab_insert`; its `dst` is the link of the node at `prev`, or the head of the chain. -/
def insertNode (slab : Slab (HashtabNode κ δ)) (m : HashtabMemory κ δ) (i : Nat)
    (prev : Option Nat) (key : κ) (datum : δ) :
    Option (Except Fault Unit × HashtabMemory κ δ) :=
  match slab.alloc m.nodes with
  | none => some (.error (.err .ENOMEM), m)
  | some newnode =>
    match loadLink m.nodes m.table.htable i prev with
    | none => none
    | some next =>
      let stored := storeLink (m.nodes.set newnode { key, datum, next }) m.table.htable i prev
        (some newnode)
      some (.ok (), { nodes := stored.1
                      table := { m.table with htable := stored.2, nel := m.table.nel + 1 } })

/-- `hashtab_insert`. A chain without end would be longer than the memory. -/
def insert (params : HashtabKeyParams κ) (slab : Slab (HashtabNode κ δ)) (m : HashtabMemory κ δ)
    (key : κ) (datum : δ) : Option (Except Fault Unit × HashtabMemory κ δ) :=
  if m.table.size = 0 ∨ m.table.nel.toNat = hashtabMaxNodes then some (.error einval, m)
  else
    match m.table.htable[m.slot params key]? with
    | none => none
    | some cur =>
      match insertWalk params.cmp key m.nodes (m.nodes.cells.length + 1) none cur with
      | none => none
      | some (.error e) => some (.error e, m)
      | some (.ok prev) => insertNode slab m (m.slot params key) prev key datum

/-- The loop of `hashtab_search`. -/
def searchWalk (cmp : κ → κ → Int) (key : κ) (nodes : Heap (HashtabNode κ δ)) :
    Nat → Option Nat → Option (Option δ)
  | 0, _ => none
  | _ + 1, none => some none
  | turns + 1, some cur =>
    match nodes.get cur with
    | none => none
    | some node =>
      if cmp key node.key = 0 then some (some node.datum)
      else if cmp key node.key < 0 then some none
      else searchWalk cmp key nodes turns node.next

/-- `hashtab_search`; the inner option is none for `NULL`. -/
def search (params : HashtabKeyParams κ) (m : HashtabMemory κ δ) (key : κ) : Option (Option δ) :=
  if m.table.size = 0 then some none
  else
    match m.table.htable[m.slot params key]? with
    | none => none
    | some cur => searchWalk params.cmp key m.nodes (m.nodes.cells.length + 1) cur

end HashtabMemory

/-- A call, with what the allocation of an insertion does. -/
inductive HashtabCall (κ δ : Type) where
  | insert (key : κ) (datum : δ) (slab : Slab (HashtabNode κ δ))
  | search (key : κ)

inductive HashtabAnswer (δ : Type) where
  | inserted (rc : Except Fault Unit)
  | found (datum : Option δ)

namespace HashtabMemory

def call (params : HashtabKeyParams κ) (m : HashtabMemory κ δ) :
    HashtabCall κ δ → Option (HashtabAnswer δ × HashtabMemory κ δ)
  | .insert key datum slab =>
    (m.insert params slab key datum).map fun out => (.inserted out.1, out.2)
  | .search key => (m.search params key).map fun datum => (.found datum, m)

/-- The answers to a sequence of calls and the memory after it. -/
def run (params : HashtabKeyParams κ) :
    HashtabMemory κ δ → List (HashtabCall κ δ) → Option (List (HashtabAnswer δ) × HashtabMemory κ δ)
  | m, [] => some ([], m)
  | m, c :: rest =>
    match m.call params c with
    | none => none
    | some (answer, m) => (run params m rest).map fun out => (answer :: out.1, out.2)

end HashtabMemory

/-- A node with what it was given, as a callback gets it. -/
structure NodeCall (κ δ : Type) where
  node : Nat
  key : κ
  datum : δ
  deriving DecidableEq, Repr

/-- The state of `hashtab_duplicate`. `args` is what the callbacks change; `copied` has an entry
for each node that `copy` has filled, `destroyed` one for each call of `destroy`, the latest
first. -/
structure Duplication (κ δ σ : Type) where
  nodes : Heap (HashtabNode κ δ)
  new : HashtabObject
  args : σ
  copied : List (NodeCall κ δ)
  destroyed : List (NodeCall κ δ)

/-- The callbacks of `hashtab_duplicate`: `copy` gives the new node its key and datum. -/
structure DuplicateOps (κ δ σ : Type) where
  copy : κ → δ → σ → Except Errno (κ × δ) × σ
  destroy : κ → δ → σ → σ

namespace Duplication

/-- Put a copied node at the end of the chain at a slot. -/
def append (s : Duplication κ δ σ) (i : Nat) (tail : Option Nat) (tmp : Nat) (key : κ) (datum : δ)
    (args : σ) : Duplication κ δ σ :=
  let stored := storeLink (s.nodes.set tmp { key, datum, next := none }) s.new.htable i tail
    (some tmp)
  { s with
    nodes := stored.1
    new := { s.new with htable := stored.2, nel := s.new.nel + 1 }
    args
    copied := { node := tmp, key, datum } :: s.copied }

/-- The inner loop over a chain of the original: whether it comes to its end, and the state. -/
def copyChain (ops : DuplicateOps κ δ σ) (slab : Slab (HashtabNode κ δ)) (i : Nat) :
    Nat → Option Nat → Option Nat → Duplication κ δ σ → Option (Bool × Duplication κ δ σ)
  | 0, _, _, _ => none
  | _ + 1, _, none, s => some (true, s)
  | turns + 1, tail, some cur, s =>
    match s.nodes.get cur with
    | none => none
    | some orig =>
      match slab.alloc s.nodes with
      | none => some (false, s)
      | some tmp =>
        match ops.copy orig.key orig.datum s.args with
        -- the node is given back before anything links it
        | (.error _, args) => some (false, { s with args })
        | (.ok (key, datum), args) =>
          let s := s.append i tail tmp key datum args
          match s.nodes.get cur with
          | none => none
          | some orig => copyChain ops slab i turns (some tmp) orig.next s

/-- The outer loop from a slot on. -/
def copyTable (ops : DuplicateOps κ δ σ) (slab : Slab (HashtabNode κ δ)) :
    Nat → List (Option Nat) → Duplication κ δ σ → Option (Bool × Duplication κ δ σ)
  | _, [], s => some (true, s)
  | i, head :: rest, s =>
    match copyChain ops slab i (s.nodes.cells.length + 1) none head s with
    | some (true, s) => copyTable ops slab (i + 1) rest s
    | out => out

/-- Destroy a node of the copy and free it. -/
def destroyNode (ops : DuplicateOps κ δ σ) (cur : Nat) (node : HashtabNode κ δ)
    (s : Duplication κ δ σ) : Duplication κ δ σ :=
  { s with
    nodes := s.nodes.free cur
    args := ops.destroy node.key node.datum s.args
    destroyed := { node := cur, key := node.key, datum := node.datum } :: s.destroyed }

/-- The inner loop at `error`. -/
def destroyChain (ops : DuplicateOps κ δ σ) :
    Nat → Option Nat → Duplication κ δ σ → Option (Duplication κ δ σ)
  | 0, _, _ => none
  | _ + 1, none, s => some s
  | turns + 1, some cur, s =>
    match s.nodes.get cur with
    | none => none
    | some node => destroyChain ops turns node.next (s.destroyNode ops cur node)

/-- The outer loop at `error`. -/
def destroyTable (ops : DuplicateOps κ δ σ) :
    List (Option Nat) → Duplication κ δ σ → Option (Duplication κ δ σ)
  | [], s => some s
  | head :: rest, s =>
    match destroyChain ops (s.nodes.cells.length + 1) head s with
    | none => none
    | some s => destroyTable ops rest s

end Duplication

/-- `hashtab_duplicate`; `allocated` tells whether `kcalloc` got its memory. -/
def HashtabMemory.duplicate (ops : DuplicateOps κ δ σ) (slab : Slab (HashtabNode κ δ)) (allocated : Bool)
    (nodes : Heap (HashtabNode κ δ)) (orig : HashtabObject) (args : σ) :
    Option (Except Fault Unit × Duplication κ δ σ) :=
  let zeroed : Duplication κ δ σ :=
    { nodes, new := HashtabObject.zero, args, copied := [], destroyed := [] }
  if allocated then
    let new : HashtabObject :=
      { htable := List.replicate orig.size.toNat none, size := orig.size, nel := 0 }
    match Duplication.copyTable ops slab 0 orig.htable { zeroed with new } with
    | none => none
    | some (true, s) => some (.ok (), s)
    | some (false, s) =>
      match Duplication.destroyTable ops s.new.htable s with
      | none => none
      | some s => some (.error (.err .ENOMEM), { s with new := HashtabObject.zero })
  else some (.error (.err .ENOMEM), zeroed)

end Ksrc.Source

import Mathlib.Logic.Function.Basic
import Ksrc.Source.PolicyFile
import Ksrc.Source.RbTree

/-!
# The key/value cache of the Lua LSM

Source: `lua/kvcache.c`, `lua/kvcache.h` and `lua/refcount.h`. The memory of nodes is indexed
by their identity, so that a node that is freed is not mistaken for a later one at its address.
A module is its address, `0` where the source has `NULL`. Each function below is one section
under a lock, or work on memory that no other thread can see; the calls from Lua are put
together from them at the end.

`lua_Number` is a type with an addition.
-/
namespace Ksrc.Source

/-- A Lua value as far as the cache looks at it; `other` is any type that it does not store. -/
inductive LuaValue (ν : Type) where
  | nil
  | boolean (b : Bool)
  | number (n : ν)
  | lightuserdata (p : U64)
  | other
  deriving DecidableEq, Repr

/-- `tt == LUA_TNIL`. -/
def LuaValue.isNil {ν : Type} : LuaValue ν → Bool
  | .nil => true
  | _ => false

/-- `struct kvcache_node`; `value` is `tt` with the union, `freed` what `kfree` does. -/
structure KvcacheNode (ν : Type) where
  key : List U8
  module : U64
  dict : Nat
  refcount : Int
  value : LuaValue ν
  freed : Bool
  deriving DecidableEq, Repr

/-- `struct kvcache_dict`. -/
structure KvcacheDict where
  capacity : Int
  count : Int
  root : RbTree Nat
  deriving DecidableEq, Repr

/-- The dictionaries, the nodes and `module->kvnodes` with its count. -/
structure Kvcache (ν : Type) where
  dicts : Nat → KvcacheDict
  nodes : Nat → KvcacheNode ν
  allocated : Nat
  kvnodes : U64 → List Nat
  kvnodesCount : U64 → Int

/-- `CACHE_CAPACITY`. -/
def cacheCapacity : Int := 1024

/-- `kvcache_dict_init`. -/
def kvcacheDictInit : KvcacheDict := { capacity := cacheCapacity, count := 0, root := .nil }

variable {ν : Type}

namespace Kvcache

/-- Write to a node. -/
def setNode (s : Kvcache ν) (node : Nat) (f : KvcacheNode ν → KvcacheNode ν) : Kvcache ν :=
  { s with nodes := Function.update s.nodes node (f (s.nodes node)) }

/-- Write to a dictionary. -/
def setDict (s : Kvcache ν) (d : Nat) (f : KvcacheDict → KvcacheDict) : Kvcache ν :=
  { s with dicts := Function.update s.dicts d (f (s.dicts d)) }

end Kvcache

/-- `kvcache_node_cmp` of the keys and modules of two nodes; the difference of the addresses is
returned as an `int`. -/
def kvcacheNodeCmp (key1 : List U8) (module1 : U64) (key2 : List U8) (module2 : U64) : Int :=
  let n := strcmp (cString key1) (cString key2)
  if n ≠ 0 then n else ((module1 - module2).setWidth 32).toInt

/-- The comparison of `tmp` with a node of the tree. -/
def kvcacheProbe (nodes : Nat → KvcacheNode ν) (module : U64) (key : List U8) (node : Nat) : Int :=
  kvcacheNodeCmp key module (nodes node).key (nodes node).module

/-- The comparison of a node with a node of the tree. -/
def kvcacheCmp (nodes : Nat → KvcacheNode ν) (new : Nat) : Nat → Int :=
  kvcacheProbe nodes (nodes new).module (nodes new).key

/-- `kvcache_node_alloc`: the new node has a reference of its creator and copies `len` bytes. -/
def kvcacheNodeAlloc (s : Kvcache ν) (d : Nat) (module : U64) (key : List U8) : Nat × Kvcache ν :=
  (s.allocated,
    { s with
      allocated := s.allocated + 1
      nodes := Function.update s.nodes s.allocated
        { key, module, dict := d, refcount := 1, value := .nil, freed := false } })

/-- `kvcache_node_free`. -/
def kvcacheNodeFree (s : Kvcache ν) (node : Nat) : Kvcache ν :=
  s.setNode node fun n => { n with value := .nil, freed := true }

/-- `kvcache_node_hold`. -/
def kvcacheNodeHold (s : Kvcache ν) (node : Nat) : Kvcache ν :=
  s.setNode node fun n => { n with refcount := n.refcount + 1 }

/-- `kvcache_node_drop`. -/
def kvcacheNodeDrop (s : Kvcache ν) (node : Nat) : Kvcache ν :=
  let s := s.setNode node fun n => { n with refcount := n.refcount - 1 }
  if (s.nodes node).refcount = 0 then kvcacheNodeFree s node else s

/-- `kvcache_lookup`, under the lock of the dictionary. -/
def kvcacheLookup (s : Kvcache ν) (d : Nat) (module : U64) (key : List U8) :
    Option Nat × Kvcache ν :=
  match (s.dicts d).root.find (kvcacheProbe s.nodes module key) with
  | none => (none, s)
  | some node => (some node, kvcacheNodeHold s node)

/-- What `kvcache_module_link` returns: `-ERANGE`, the node that is there, or `NULL`. -/
inductive KvcacheLinked where
  | range
  | prev (node : Nat)
  | linked
  deriving DecidableEq, Repr

/-- `kvcache_module_link`, under the lock of the dictionary. -/
def kvcacheModuleLink (s : Kvcache ν) (d : Nat) (module : U64) (node : Nat) :
    KvcacheLinked × Kvcache ν :=
  if (s.dicts d).count ≥ (s.dicts d).capacity then (.range, s)
  else
    match (s.dicts d).root.insert (kvcacheCmp s.nodes) node with
    | (some prev, _) => (.prev prev, kvcacheNodeHold s prev)
    | (none, root) =>
      let s := s.setDict d fun dict => { dict with root, count := dict.count + 1 }
      if module = 0 then (.linked, s)
      else
        (.linked,
          { s with
            kvnodes := Function.update s.kvnodes module (s.kvnodes module ++ [node])
            kvnodesCount := Function.update s.kvnodesCount module (s.kvnodesCount module + 1) })

/-- `list_del` and `atomic_dec` of a module's list, under `kvnodes_lock`. -/
def kvnodesDel (s : Kvcache ν) (module : U64) (node : Nat) : Kvcache ν :=
  { s with
    kvnodes := Function.update s.kvnodes module ((s.kvnodes module).erase node)
    kvnodesCount := Function.update s.kvnodesCount module (s.kvnodesCount module - 1) }

/-- `kvcache_module_unlink_unlocked`. A node that is not in the tree any more is cut out by links
that are stale; what that does to the other nodes of the tree is not followed. -/
def kvcacheModuleUnlink (s : Kvcache ν) (d : Nat) (module : U64) (node : Nat) : Kvcache ν :=
  let s := s.setDict d fun dict =>
    { dict with root := (dict.root.remove node).getD dict.root, count := dict.count - 1 }
  if module = 0 then s else kvnodesDel s module node

/-- `kvcache_node_fill`: the value to store, or `-EINVAL`. -/
def kvcacheNodeFill (value : LuaValue ν) : Except Errno (LuaValue ν) :=
  match value with
  | .boolean _ | .number _ | .lightuserdata _ => .ok value
  | .nil | .other => .error .EINVAL

/-- `kvcache_node_refill`, under the lock of the node. -/
def kvcacheNodeRefill (s : Kvcache ν) (node : Nat) (value : LuaValue ν) :
    Except Errno Unit × Kvcache ν :=
  match kvcacheNodeFill value with
  | .error e => (.error e, s)
  | .ok value => (.ok (), s.setNode node fun n => { n with value })

/-- The update of `kvcache_incr`, under the lock of the node. -/
def kvcacheUpdate [Add ν] (s : Kvcache ν) (node : Nat) (n : ν) : Except Errno ν × Kvcache ν :=
  match (s.nodes node).value with
  | .number old => (.ok (old + n), s.setNode node fun cell => { cell with value := .number (old + n) })
  | _ => (.error .EINVAL, s)

/-- What a call leaves on the Lua stack: `nil` and the name of an error, or one value. -/
inductive KvcacheResult (ν : Type) where
  | error (e : Errno)
  | value (v : LuaValue ν)
  deriving DecidableEq, Repr

/-- `kvcache_node_get` and the push after it; a node is never of another type. -/
def kvcacheNodeGet (s : Kvcache ν) (node : Nat) : KvcacheResult ν := .value (s.nodes node).value

/-- `kvcache_set`; `alloc` says whether `kmalloc` succeeds. -/
def kvcacheSet (s : Kvcache ν) (d : Nat) (module : U64) (key : List U8) (value : LuaValue ν)
    (alloc : Bool) : KvcacheResult ν × Kvcache ν :=
  match kvcacheLookup s d module key with
  | (none, s) =>
    if value.isNil then (.value (.boolean true), s)
    else if ¬ alloc then (.error .ENOMEM, s)
    else
      let (node, s) := kvcacheNodeAlloc s d module key
      match kvcacheNodeFill value with
      | .error e => (.error e, kvcacheNodeFree s node)
      | .ok value =>
        let s := s.setNode node fun n => { n with value }
        match kvcacheModuleLink s d module node with
        | (.range, s) => (.error .ERANGE, kvcacheNodeFree s node)
        | (.prev prev, s) =>
          match kvcacheNodeRefill (kvcacheNodeFree s node) prev value with
          | (.error e, s) => (.error e, kvcacheNodeDrop s prev)
          | (.ok (), s) => (.value (.boolean true), kvcacheNodeDrop s prev)
        | (.linked, s) => (.value (.boolean true), s)
  | (some node, s) =>
    if value.isNil then
      let s := kvcacheModuleUnlink s d module node
      let s := kvcacheNodeDrop s node
      (.value (.boolean true), kvcacheNodeDrop s node)
    else
      match kvcacheNodeRefill s node value with
      | (.error e, s) => (.error e, kvcacheNodeDrop s node)
      | (.ok (), s) => (.value (.boolean true), kvcacheNodeDrop s node)

/-- `kvcache_get`. -/
def kvcacheGet (s : Kvcache ν) (d : Nat) (module : U64) (key : List U8) :
    KvcacheResult ν × Kvcache ν :=
  match kvcacheLookup s d module key with
  | (none, s) => (.value .nil, s)
  | (some node, s) => (kvcacheNodeGet s node, kvcacheNodeDrop s node)

/-- `kvcache_incr`; `n` is the third argument, or 1. -/
def kvcacheIncr [Add ν] (s : Kvcache ν) (d : Nat) (module : U64) (key : List U8) (n : ν)
    (alloc : Bool) : KvcacheResult ν × Kvcache ν :=
  let update := fun (s : Kvcache ν) (node : Nat) =>
    match kvcacheUpdate s node n with
    | (.error e, s) => (KvcacheResult.error e, kvcacheNodeDrop s node)
    | (.ok n, s) => (.value (.number n), kvcacheNodeDrop s node)
  match kvcacheLookup s d module key with
  | (none, s) =>
    if ¬ alloc then (.error .ENOMEM, s)
    else
      let (node, s) := kvcacheNodeAlloc s d module key
      let s := s.setNode node fun cell => { cell with value := .number n }
      match kvcacheModuleLink s d module node with
      | (.range, s) => (.error .ERANGE, kvcacheNodeFree s node)
      | (.prev prev, s) => update (kvcacheNodeFree s node) prev
      | (.linked, s) => (.value (.number n), s)
  | (some node, s) => update s node

/-- A call from Lua. -/
inductive KvcacheCall (ν : Type) where
  | set (key : List U8) (value : LuaValue ν) (alloc : Bool)
  | get (key : List U8)
  | incr (key : List U8) (n : ν) (alloc : Bool)
  deriving DecidableEq, Repr

/-- The key of a call. -/
def callKey : KvcacheCall ν → List U8
  | .set key _ _ => key
  | .get key => key
  | .incr key _ _ => key

/-- The call of a module on a dictionary. -/
def kvcacheCall [Add ν] (s : Kvcache ν) (d : Nat) (module : U64) :
    KvcacheCall ν → KvcacheResult ν × Kvcache ν
  | .set key value alloc => kvcacheSet s d module key value alloc
  | .get key => kvcacheGet s d module key
  | .incr key n alloc => kvcacheIncr s d module key n alloc

end Ksrc.Source

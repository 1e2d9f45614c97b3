import Ksrc.Source.KvCache

/-!
# Teardown of the key/value cache

Source: `lua/kvcache.c`, `kvcache_module_nodes_gc` and `kvcache_dict_free`. A section under the lock of
a dictionary is cut in three, as `kvcache_dict_free` tests the count without that lock; a node is taken
out of a list or a tree that no other thread can get at together with the drop of its reference. The
rest of a list or tree that is walked under `nodes_gc_lock` is read when the lock is taken: what is
walked does not change until the lock is released.
-/
namespace Ksrc.Source

variable {ν : Type}

/-- Where `kvcache_module_nodes_gc` of a module stands; `inside` and `leaving` hold the lock of the
dictionary of the node, before and after the node is taken out. -/
inductive GcStage where
  | idle
  | walk (rest : List Nat)
  | inside (node : Nat) (rest : List Nat)
  | leaving (node : Nat) (rest : List Nat)
  | puts
  deriving DecidableEq, Repr

/-- Where `kvcache_dict_free` of a dictionary stands. -/
inductive FreeStage where
  | test
  | lock
  | delist (rest : List Nat)
  | dismantle
  | returned
  deriving DecidableEq, Repr

/-- A thread that can hold `nodes_gc_lock`. -/
inductive TeardownThread where
  | gc (module : U64)
  | free (d : Nat)
  deriving DecidableEq, Repr

/-- The cache, the locks, the threads, and the references that other threads have to a node. -/
structure KvTeardown (ν : Type) where
  cache : Kvcache ν
  nodesGcLock : Option TeardownThread
  dictLock : Nat → Option U64
  gc : U64 → GcStage
  free : Nat → FreeStage
  held : Nat → Nat

namespace KvTeardown

variable (s : KvTeardown ν)

def setGc (module : U64) (stage : GcStage) : KvTeardown ν :=
  { s with gc := Function.update s.gc module stage }

def setFree (d : Nat) (stage : FreeStage) : KvTeardown ν :=
  { s with free := Function.update s.free d stage }

end KvTeardown

/-- A step of `kvcache_module_nodes_gc`; `none` where it waits for a lock. -/
def kvcacheModuleNodesGc (s : KvTeardown ν) (module : U64) : Option (KvTeardown ν) :=
  match s.gc module with
  | .idle =>
    if s.nodesGcLock.isNone then
      some ({ s with nodesGcLock := some (.gc module) }.setGc module (.walk (s.cache.kvnodes module)))
    else none
  | .walk [] => some ({ s with nodesGcLock := none }.setGc module .puts)
  | .walk (node :: rest) =>
    let d := (s.cache.nodes node).dict
    if (s.dictLock d).isNone then
      some ({ s with dictLock := Function.update s.dictLock d (some module) }.setGc module
        (.inside node rest))
    else none
  | .inside node rest =>
    some ({ s with cache := kvcacheModuleUnlink s.cache (s.cache.nodes node).dict 0 node }.setGc
      module (.leaving node rest))
  | .leaving node rest =>
    some ({ s with dictLock := Function.update s.dictLock (s.cache.nodes node).dict none }.setGc
      module (.walk rest))
  | .puts =>
    match s.cache.kvnodes module with
    | [] => some (s.setGc module .idle)
    | node :: _ => some { s with cache := kvcacheNodeDrop (kvnodesDel s.cache module node) node }

/-- A step of `kvcache_dict_free`. -/
def kvcacheDictFree (s : KvTeardown ν) (d : Nat) : Option (KvTeardown ν) :=
  match s.free d with
  | .test => some (s.setFree d (if (s.cache.dicts d).count = 0 then .returned else .lock))
  | .lock =>
    if s.nodesGcLock.isNone then
      some ({ s with nodesGcLock := some (.free d) }.setFree d
        (.delist (s.cache.dicts d).root.foreach))
    else none
  | .delist [] => some ({ s with nodesGcLock := none }.setFree d .dismantle)
  | .delist (node :: rest) =>
    let module := (s.cache.nodes node).module
    let cache := if module = 0 then s.cache else kvnodesDel s.cache module node
    some ({ s with cache }.setFree d (.delist rest))
  | .dismantle =>
    match (s.cache.dicts d).root.foreach with
    | [] => some (s.setFree d .returned)
    | node :: _ =>
      some { s with cache := kvcacheNodeDrop (kvcacheModuleUnlink s.cache d 0 node) node }
  | .returned => none

/-- A thread that has looked a node up puts its reference. -/
def putHeld (s : KvTeardown ν) (node : Nat) : Option (KvTeardown ν) :=
  if s.held node = 0 then none
  else
    some { s with
      cache := kvcacheNodeDrop s.cache node
      held := Function.update s.held node (s.held node - 1) }

inductive TeardownAct where
  | gc (module : U64)
  | free (d : Nat)
  | put (node : Nat)
  deriving DecidableEq, Repr

def teardownStep (s : KvTeardown ν) : TeardownAct → Option (KvTeardown ν)
  | .gc module => kvcacheModuleNodesGc s module
  | .free d => kvcacheDictFree s d
  | .put node => putHeld s node

end Ksrc.Source

import Ksrc.Source.KvCache

/-!
# Threads in the key/value cache

Source: `lua/kvcache.c`. The calls of `KvCache.lean`, cut where another thread may come in
between: around each section under the lock of the dictionary or of a node and around each drop
of a reference. What a thread does to a node that only it knows goes with the section before or
after it.
-/
namespace Ksrc.Source

variable {ν : Type}

/-- The section that a call comes to next. -/
inductive KvcacheStage (ν : Type) where
  | lookup
  | alloc
  | link (node : Nat)
  | refill (node : Nat) (value : LuaValue ν)
  | update (node : Nat) (n : ν)
  | read (node : Nat)
  | unlink (node : Nat)
  | dropTree (node : Nat)
  | drop (node : Nat) (result : KvcacheResult ν)
  deriving DecidableEq, Repr

/-- A call in flight. -/
structure KvcacheThread (ν : Type) where
  module : U64
  call : KvcacheCall ν
  stage : KvcacheStage ν
  deriving DecidableEq, Repr

/-- How a section ends. -/
inductive KvcacheNext (ν : Type) where
  | goes (stage : KvcacheStage ν)
  | returns (result : KvcacheResult ν)
  deriving DecidableEq, Repr

/-- `kvcache_lookup` and the branch on what it returns. -/
def kvcacheLookupSection (s : Kvcache ν) (d : Nat) (module : U64) (call : KvcacheCall ν) :
    KvcacheNext ν × Kvcache ν :=
  match kvcacheLookup s d module (callKey call) with
  | (none, s) =>
    match call with
    | .set _ .nil _ => (.returns (.value (.boolean true)), s)
    | .get _ => (.returns (.value .nil), s)
    | _ => (.goes .alloc, s)
  | (some node, s) =>
    match call with
    | .set _ .nil _ => (.goes (.unlink node), s)
    | .set _ value _ => (.goes (.refill node value), s)
    | .get _ => (.goes (.read node), s)
    | .incr _ n _ => (.goes (.update node n), s)

/-- `kvcache_node_alloc` and what is written to the new node. -/
def kvcacheAllocSection (s : Kvcache ν) (d : Nat) (module : U64) (call : KvcacheCall ν) :
    KvcacheNext ν × Kvcache ν :=
  match call with
  | .set key value alloc =>
    if ¬ alloc then (.returns (.error .ENOMEM), s)
    else
      let (node, s) := kvcacheNodeAlloc s d module key
      match kvcacheNodeFill value with
      | .error e => (.returns (.error e), kvcacheNodeFree s node)
      | .ok value => (.goes (.link node), s.setNode node fun n => { n with value })
  | .incr key n alloc =>
    if ¬ alloc then (.returns (.error .ENOMEM), s)
    else
      let (node, s) := kvcacheNodeAlloc s d module key
      (.goes (.link node), s.setNode node fun cell => { cell with value := .number n })
  -- `kvcache_get` does not allocate
  | .get _ => (.returns (.value .nil), s)

/-- `kvcache_module_link` and the branch on what it returns. -/
def kvcacheLinkSection (s : Kvcache ν) (d : Nat) (module : U64) (call : KvcacheCall ν) (node : Nat) :
    KvcacheNext ν × Kvcache ν :=
  match kvcacheModuleLink s d module node with
  | (.range, s) => (.returns (.error .ERANGE), kvcacheNodeFree s node)
  | (.prev prev, s) =>
    match call with
    | .set _ value _ => (.goes (.refill prev value), kvcacheNodeFree s node)
    | .incr _ n _ => (.goes (.update prev n), kvcacheNodeFree s node)
    | .get _ => (.returns (.value .nil), kvcacheNodeFree s node)
  | (.linked, s) =>
    match call with
    | .incr _ n _ => (.returns (.value (.number n)), s)
    | _ => (.returns (.value (.boolean true)), s)

/-- One section of a call. -/
def kvcacheSection [Add ν] (s : Kvcache ν) (d : Nat) (module : U64) (call : KvcacheCall ν) :
    KvcacheStage ν → KvcacheNext ν × Kvcache ν
  | .lookup => kvcacheLookupSection s d module call
  | .alloc => kvcacheAllocSection s d module call
  | .link node => kvcacheLinkSection s d module call node
  | .refill node value =>
    match kvcacheNodeRefill s node value with
    | (.error e, s) => (.goes (.drop node (.error e)), s)
    | (.ok (), s) => (.goes (.drop node (.value (.boolean true))), s)
  | .update node n =>
    match kvcacheUpdate s node n with
    | (.error e, s) => (.goes (.drop node (.error e)), s)
    | (.ok n, s) => (.goes (.drop node (.value (.number n))), s)
  | .read node => (.goes (.drop node (kvcacheNodeGet s node)), s)
  | .unlink node => (.goes (.dropTree node), kvcacheModuleUnlink s d module node)
  | .dropTree node => (.goes (.drop node (.value (.boolean true))), kvcacheNodeDrop s node)
  | .drop node result => (.returns result, kvcacheNodeDrop s node)

/-- A call that runs alone from a section on; `turns` bounds the sections that are left. -/
def kvcacheAlone [Add ν] (d : Nat) (module : U64) (call : KvcacheCall ν) :
    Nat → KvcacheStage ν → Kvcache ν → Option (KvcacheResult ν × Kvcache ν)
  | 0, _, _ => none
  | turns + 1, stage, s =>
    match kvcacheSection s d module call stage with
    | (.returns result, s) => some (result, s)
    | (.goes stage, s) => kvcacheAlone d module call turns stage s

theorem kvcacheAlone_succ [Add ν] {d turns : Nat} {module : U64} {call : KvcacheCall ν}
    {stage : KvcacheStage ν} {s : Kvcache ν} :
    kvcacheAlone d module call (turns + 1) stage s =
      match kvcacheSection s d module call stage with
      | (.returns result, s) => some (result, s)
      | (.goes stage, s) => kvcacheAlone d module call turns stage s := by
  rw [kvcacheAlone]

end Ksrc.Source

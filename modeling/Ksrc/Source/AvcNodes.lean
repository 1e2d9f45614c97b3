import Ksrc.Library.Heap
import Ksrc.Library.Transition
import Ksrc.Source.Avc

/-!
# The nodes of the access vector cache and the calls that link them

Source: `security/selinux/avc.c` (`avc_node_delete`, `avc_node_kill`, `avc_node_replace`,
`avc_reclaim_node`, `avc_alloc_node`, `avc_insert`, `avc_update_node`, `avc_flush`). Nodes are
objects of `avc_node_cachep` at addresses, a slot is the list of the addresses it links.

A step is what one call does under one slot lock, or with one atomic counter, so steps of
different calls may follow each other in any order. The slab allocator may give out any address
that is not in use; a deleted node stays in use until its RCU callback has run. A call that
would follow a `NULL` pointer has no further step.
-/
namespace Ksrc.Source

open Library

structure AvcMemory where
  nodes : Heap AvcNode
  slots : Fin avcCacheSlots → List Nat
  callRcu : List Nat
  lruHint : U32
  activeNodes : U32
  threshold : U32
  latestNotif : U32

/-- What `kmem_cache_zalloc(avc_node_cachep)` leaves in an object. -/
def avcNodeZero : AvcNode :=
  { ssid := 0, tsid := 0, tclass := 0
    avd := { allowed := 0, auditallow := 0, auditdeny := 0, seqno := 0, flags := 0 }
    xpNode := none }

/-- What nodes are compared by. -/
def AvcNode.key (node : AvcNode) : U32 × U32 × U16 := (node.ssid, node.tsid, node.tclass)

/-- The slot a node belongs to. -/
def AvcNode.hash (node : AvcNode) : Fin avcCacheSlots := avcHash node.ssid node.tsid node.tclass

/-- The slot a hint selects. -/
def hintSlot (hint : U32) : Fin avcCacheSlots :=
  ⟨(hint &&& 0x1ff).toNat, by
    simp only [BitVec.toNat_and]
    exact Nat.lt_of_le_of_lt Nat.and_le_right (by decide)⟩

namespace AvcMemory

variable (c : AvcMemory)

/-- `selinux_avc_init`. -/
def init : AvcMemory :=
  { nodes := .empty, slots := fun _ => [], callRcu := [], lruHint := 0, activeNodes := 0
    threshold := BitVec.ofNat 32 avcDefCacheThreshold, latestNotif := 0 }

/-- `avc_node_delete` of a node of a slot. -/
def nodeDelete (h : Fin avcCacheSlots) (node : Nat) : AvcMemory :=
  { c with
    slots := Function.update c.slots h ((c.slots h).erase node)
    callRcu := node :: c.callRcu
    activeNodes := c.activeNodes - 1 }

/-- `avc_node_kill`. -/
def nodeKill (node : Nat) : AvcMemory :=
  { c with nodes := c.nodes.free node, activeNodes := c.activeNodes - 1 }

/-- `avc_node_replace` of a node of a slot. -/
def nodeReplace (h : Fin avcCacheSlots) (new old : Nat) : AvcMemory :=
  { c with
    slots := Function.update c.slots h
      ((c.slots h).map fun pos => if pos = old then new else pos)
    callRcu := old :: c.callRcu
    activeNodes := c.activeNodes - 1 }

/-- `hlist_add_head_rcu` to a slot. -/
def addHead (h : Fin avcCacheSlots) (node : Nat) : AvcMemory :=
  { c with slots := Function.update c.slots h (node :: c.slots h) }

/-- `avc_node_free`, once the grace period of a deleted node is over. -/
def nodeFree (node : Nat) : AvcMemory :=
  { c with nodes := c.nodes.free node, callRcu := c.callRcu.erase node }

/-- What a call writes to its own node. -/
def write (node : Nat) (content : AvcNode) : AvcMemory :=
  { c with nodes := c.nodes.set node content }

/-- `avc_alloc_node` up to its test of the threshold. -/
def nodeAlloc (node : Nat) : AvcMemory :=
  { c with nodes := c.nodes.set node avcNodeZero, activeNodes := c.activeNodes + 1 }

/-- The loop of `avc_reclaim_node` over a slot that it has locked: whether the quota is used up,
and the nodes gone so far. -/
def reclaimSlot (h : Fin avcCacheSlots) : List Nat → Nat → AvcMemory → Bool × Nat × AvcMemory
  | [], ecx, c => (false, ecx, c)
  | node :: rest, ecx, c =>
    if avcCacheReclaim ≤ ecx + 1 then (true, ecx + 1, c.nodeDelete h node)
    else reclaimSlot h rest (ecx + 1) (c.nodeDelete h node)

/-- The loop of `avc_flush` over a slot that it has locked. -/
def flushSlot (h : Fin avcCacheSlots) : List Nat → AvcMemory → AvcMemory
  | [], c => c
  | node :: rest, c => flushSlot h rest (c.nodeDelete h node)

/-- Whether a test accepts what a node holds. -/
def accepts (test : AvcNode → Bool) (node : Nat) : Bool := (c.nodes.get node).any test

end AvcMemory

/-- The arguments of `avc_insert`. -/
structure InsertArgs where
  ssid : U32
  tsid : U32
  tclass : U16
  avd : AvDecision
  xpNode : AvcXpermsNode
  deriving DecidableEq, Repr

/-- The arguments of `avc_update_node`. -/
structure UpdateArgs where
  event : AvcEvent
  perms : U32
  driver : U8
  xperm : U8
  ssid : U32
  tsid : U32
  tclass : U16
  seqno : U32
  xpd : Option ExtendedPermsDecision
  flags : U32
  deriving DecidableEq, Repr

/-- What `avc_alloc_node` was called for. -/
inductive AvcWork where
  | insert (args : InsertArgs)
  | update (args : UpdateArgs)
  deriving DecidableEq, Repr

/-- Where a call is; each name says what it does next. `tries` and `ecx` are the counters of
`avc_reclaim_node`, and `node` is what `avc_alloc_node` has got. -/
inductive AvcCall where
  | checkNotif (args : InsertArgs)
  | alloc (work : AvcWork)
  | incHint (work : AvcWork) (node tries ecx : Nat)
  | reclaim (work : AvcWork) (node tries ecx : Nat) (slot : Fin avcCacheSlots)
  | populate (args : InsertArgs) (node : Nat)
  | link (args : InsertArgs) (node : Nat)
  | update (args : UpdateArgs) (node : Nat)
  | flush (slot : Nat)
  deriving DecidableEq, Repr

namespace AvcCall

/-- The node that a call has allocated and neither linked nor killed. -/
def node : AvcCall → Option Nat
  | .incHint _ node _ _ => some node
  | .reclaim _ node _ _ _ => some node
  | .populate _ node => some node
  | .link _ node => some node
  | .update _ node => some node
  | .checkNotif _ => none
  | .alloc _ => none
  | .flush _ => none

end AvcCall

/-- What a call does after `avc_alloc_node`. -/
def AvcWork.next (node : Nat) : AvcWork → AvcCall
  | .insert args => .populate args node
  | .update args => .update args node

/-- What a step finds outside the cache: the object a node allocation gets, whether a
`spin_trylock` takes the lock, and the outcomes of the other allocations. -/
structure AvcChoice where
  object : Option Nat
  trylock : Bool
  tape : Tape

namespace AvcMemory

variable (c : AvcMemory)

/-- The locked part of `avc_insert`. -/
def insertLocked (args : InsertArgs) (node : Nat) : AvcMemory :=
  let hvalue := avcHash args.ssid args.tsid args.tclass
  match (c.slots hvalue).find? (c.accepts (·.keyEq args.ssid args.tsid args.tclass)) with
  | some pos => c.nodeReplace hvalue node pos
  | none => c.addHead hvalue node

/-- The private copy that `avc_update_node` makes of a node and edits. -/
def updateCopy (args : UpdateArgs) (orig : AvcNode) (t : Tape) : Except Errno AvcNode :=
  let node := avcNodePopulate args.ssid args.tsid args.tclass orig.avd
  let populated := match orig.xpNode with
    | some src => avcXpermsPopulate node src t
    | none => (.ok node, t)
  match populated with
  | (.error e, _) => .error e
  | (.ok node, t) =>
    (avcUpdateEvent args.event args.perms args.driver args.xperm args.flags args.xpd node t).1

/-- The locked part of `avc_update_node`. -/
def updateLocked (args : UpdateArgs) (node : Nat) (t : Tape) : Option AvcMemory :=
  let hvalue := avcHash args.ssid args.tsid args.tclass
  match (c.slots hvalue).find? (c.accepts fun pos =>
      pos.keyEq args.ssid args.tsid args.tclass && args.seqno == pos.avd.seqno) with
  | none => some (c.nodeKill node)
  | some pos =>
    match c.nodes.get pos with
    | none => none
    | some orig =>
      match updateCopy args orig t with
      | .error .EFAULT => none
      | .error _ => some (c.nodeKill node)
      | .ok content => some ((c.write node content).nodeReplace hvalue node pos)

/-- The next step of a call: the cache after it, and where the call is if it has not returned. -/
def advance (choice : AvcChoice) : AvcCall → Option (AvcMemory × Option AvcCall)
  | .checkNotif args =>
    -- `avc_latest_notif_update(avd->seqno, 1)`
    if args.avd.seqno.toNat < c.latestNotif.toNat then some (c, none)
    else some (c, some (.alloc (.insert args)))
  | .alloc work =>
    match choice.object with
    | none => some (c, none)
    | some node =>
      if (c.nodes.get node).isSome then none
      else if c.threshold.toNat < (c.activeNodes + 1).toNat then
        some (c.nodeAlloc node, some (.incHint work node avcCacheSlots 0))
      else some (c.nodeAlloc node, some (work.next node))
  | .incHint work node tries ecx =>
    if tries = 0 then some (c, some (work.next node))
    else
      let hint := c.lruHint + 1
      some ({ c with lruHint := hint }, some (.reclaim work node (tries - 1) ecx (hintSlot hint)))
  | .reclaim work node tries ecx slot =>
    if choice.trylock then
      match reclaimSlot slot (c.slots slot) ecx c with
      | (true, _, c) => some (c, some (work.next node))
      | (false, ecx, c) => some (c, some (.incHint work node tries ecx))
    else some (c, some (.incHint work node tries ecx))
  | .populate args node =>
    match (avcXpermsPopulate (avcNodePopulate args.ssid args.tsid args.tclass args.avd)
        args.xpNode choice.tape).1 with
    | .error _ => some (c.nodeKill node, none)
    | .ok content => some (c.write node content, some (.link args node))
  | .link args node => some (c.insertLocked args node, none)
  | .update args node => (c.updateLocked args node choice.tape).map fun c => (c, none)
  | .flush slot =>
    if h : slot < avcCacheSlots then
      some (flushSlot ⟨slot, h⟩ (c.slots ⟨slot, h⟩) c, some (.flush (slot + 1)))
    else some (c, none)

end AvcMemory

/-- The cache and the calls in progress. -/
structure AvcSystem where
  memory : AvcMemory
  calls : List AvcCall

/-- A call begins or goes on, a grace period ends for a deleted node, `avc_ss_reset` or
`avc_set_cache_threshold` writes its number. -/
inductive AvcMove where
  | insert (args : InsertArgs)
  | update (args : UpdateArgs)
  | flush
  | step (call : Nat) (choice : AvcChoice)
  | nodeFree (node : Nat)
  | notif (seqno : U32)
  | threshold (value : U32)

namespace AvcSystem

variable (s : AvcSystem)

def begin (call : AvcCall) : AvcSystem := { s with calls := s.calls ++ [call] }

def step : AvcMove → Option AvcSystem
  | .insert args => some (s.begin (.checkNotif args))
  | .update args => some (s.begin (.alloc (.update args)))
  | .flush => some (s.begin (.flush 0))
  | .step i choice =>
    match s.calls[i]? with
    | none => none
    | some call =>
      (s.memory.advance choice call).map fun next =>
        { memory := next.1, calls := s.calls.take i ++ next.2.toList ++ s.calls.drop (i + 1) }
  | .nodeFree node =>
    if node ∈ s.memory.callRcu then some { s with memory := s.memory.nodeFree node } else none
  | .notif seqno =>
    -- `avc_latest_notif_update(seqno, 0)`
    if s.memory.latestNotif.toNat < seqno.toNat then
      some { s with memory := { s.memory with latestNotif := seqno } }
    else some s
  | .threshold value => some { s with memory := { s.memory with threshold := value } }

end AvcSystem

/-- The cache of a started kernel, with no call in progress. -/
def avcNodes : Machine AvcSystem AvcMove where
  start s := s.memory = .init ∧ s.calls = []
  step := AvcSystem.step

end Ksrc.Source

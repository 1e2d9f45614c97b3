import Ksrc.Library.BucketTable
import Ksrc.Library.Transition
import Ksrc.Source.Security

/-!
# Network label caches

Source: `security/selinux/netport.c`, `netnode.c`, `netif.c`, `ibpkey.c`, and the
reset callbacks `selinux_netcache_avc_callback` and
`selinux_lsm_notifier_avc_callback` of `hooks.c`.

The four caches are near copies; each keeps its own definitions, written as the
shared one applied to its own key, hash and limit. The policy query
(`security_port_sid` and its siblings) and `dev_get_by_index` are answered from
outside.
-/
namespace Ksrc.Source

open Library

/-- A record of a cache: its key and the SID the policy gave. -/
structure LabelEntry (κ : Type) where
  key : κ
  sid : U32
  deriving DecidableEq, Repr

theorem and_mask_lt (x : U64) (bits : Nat) (small : bits ≤ 63) :
    (x &&& (2 ^ bits - 1 : Nat)).toNat < 2 ^ bits := by
  have pos := Nat.two_pow_pos bits
  have fits : 2 ^ bits - 1 < 2 ^ 64 := by
    have := Nat.pow_le_pow_right (show 0 < 2 by decide) small
    omega
  have mask : ((2 ^ bits - 1 : Nat) : U64).toNat = 2 ^ bits - 1 := by
    change (BitVec.ofNat 64 (2 ^ bits - 1)).toNat = 2 ^ bits - 1
    rw [BitVec.toNat_ofNat, Nat.mod_eq_of_lt fits]
  rw [BitVec.toNat_and, mask]
  have := @Nat.and_le_right x.toNat (2 ^ bits - 1)
  omega

/-- `x & (2 ^ bits - 1)` as a bucket index. -/
def maskIndex (x : U64) (bits : Nat) (small : bits ≤ 63) : Fin (2 ^ bits) :=
  ⟨(x &&& (2 ^ bits - 1 : Nat)).toNat, and_mask_lt x bits small⟩

/-- A table of 256 buckets. -/
abbrev BucketArray (κ : Type) := Fin (2 ^ 8) → Bucket (LabelEntry κ)

/-- The search of one bucket. -/
def labelFind {κ : Type} [DecidableEq κ] (list : List (LabelEntry κ)) (key : κ) :
    Option (LabelEntry κ) :=
  list.find? (fun entry => entry.key = key)

/-- `*_insert` of the caches with a limit for each bucket. -/
def bucketInsert {κ : Type} (hash : κ → Fin (2 ^ 8)) (limit : Nat) (table : BucketArray κ)
    (entry : LabelEntry κ) : BucketArray κ :=
  Function.update table (hash entry.key) ((table (hash entry.key)).insert limit entry)

/-- `*_flush` of the caches with a limit for each bucket. -/
def bucketFlush {κ : Type} (_ : BucketArray κ) : BucketArray κ := fun _ => .empty

/-- `*_sid_slow` under the lock: search again, ask the policy, allocate, insert.
`noMemory` is the result when the policy answered but `kzalloc` failed. -/
def labelSidSlow {κ σ : Type} (find : σ → κ → Option (LabelEntry κ))
    (insert : σ → LabelEntry κ → σ) (noMemory : U32 → Except Errno U32) (table : σ) (key : κ)
    (answer : Except Errno U32) (allocated : Bool) : Except Errno U32 × σ :=
  match find table key with
  | some entry => (.ok entry.sid, table)
  | none =>
    match answer with
    | .error e => (.error e, table)
    | .ok sid =>
      if allocated then (.ok sid, insert table { key, sid }) else (noMemory sid, table)

def selNetportHashBktLimit : Nat := 16

structure NetportKey where
  port : U16
  protocol : U8
  deriving DecidableEq, Repr

def selNetportHashfn (key : NetportKey) : Fin (2 ^ 8) :=
  maskIndex (key.port.zeroExtend 64) 8 (by decide)

def selNetportFind (table : BucketArray NetportKey) (key : NetportKey) :
    Option (LabelEntry NetportKey) :=
  labelFind (table (selNetportHashfn key)).list key

def selNetportInsert (table : BucketArray NetportKey) (port : LabelEntry NetportKey) :
    BucketArray NetportKey :=
  bucketInsert selNetportHashfn selNetportHashBktLimit table port

def selNetportFlush (table : BucketArray NetportKey) : BucketArray NetportKey :=
  bucketFlush table

def selNetportSidSlow (table : BucketArray NetportKey) (key : NetportKey)
    (answer : Except Errno U32) (allocated : Bool) : Except Errno U32 × BucketArray NetportKey :=
  labelSidSlow selNetportFind selNetportInsert .ok table key answer allocated

def selNetnodeHashBktLimit : Nat := 16

/-- An address with its family; other families are a `BUG()`. -/
inductive NetnodeKey where
  | ipv4 (addr : U32)
  | ipv6 (addr : Vector U32 4)
  deriving DecidableEq, Repr

def selNetnodeHashfnIpv4 (addr : U32) : Fin (2 ^ 8) :=
  maskIndex (addr.zeroExtend 64) 8 (by decide)

/-- Only the least significant 32 bits are hashed. -/
def selNetnodeHashfnIpv6 (addr : Vector U32 4) : Fin (2 ^ 8) :=
  maskIndex (addr[3].zeroExtend 64) 8 (by decide)

def selNetnodeHashfn : NetnodeKey → Fin (2 ^ 8)
  | .ipv4 addr => selNetnodeHashfnIpv4 addr
  | .ipv6 addr => selNetnodeHashfnIpv6 addr

def selNetnodeFind (table : BucketArray NetnodeKey) (key : NetnodeKey) :
    Option (LabelEntry NetnodeKey) :=
  labelFind (table (selNetnodeHashfn key)).list key

def selNetnodeInsert (table : BucketArray NetnodeKey) (node : LabelEntry NetnodeKey) :
    BucketArray NetnodeKey :=
  bucketInsert selNetnodeHashfn selNetnodeHashBktLimit table node

def selNetnodeFlush (table : BucketArray NetnodeKey) : BucketArray NetnodeKey :=
  bucketFlush table

def selNetnodeSidSlow (table : BucketArray NetnodeKey) (key : NetnodeKey)
    (answer : Except Errno U32) (allocated : Bool) : Except Errno U32 × BucketArray NetnodeKey :=
  labelSidSlow selNetnodeFind selNetnodeInsert .ok table key answer allocated

def selPkeyHashBktLimit : Nat := 16

structure IbPkeyKey where
  subnetPrefix : U64
  pkey : U16
  deriving DecidableEq, Repr

def selIbPkeyHashfn (key : IbPkeyKey) : Fin (2 ^ 8) :=
  maskIndex (key.pkey.zeroExtend 64) 8 (by decide)

def selIbPkeyFind (table : BucketArray IbPkeyKey) (key : IbPkeyKey) :
    Option (LabelEntry IbPkeyKey) :=
  labelFind (table (selIbPkeyHashfn key)).list key

def selIbPkeyInsert (table : BucketArray IbPkeyKey) (pkey : LabelEntry IbPkeyKey) :
    BucketArray IbPkeyKey :=
  bucketInsert selIbPkeyHashfn selPkeyHashBktLimit table pkey

def selIbPkeyFlush (table : BucketArray IbPkeyKey) : BucketArray IbPkeyKey :=
  bucketFlush table

/-- Here a failed allocation is an error, unlike in the other three caches. -/
def selIbPkeySidSlow (table : BucketArray IbPkeyKey) (key : IbPkeyKey)
    (answer : Except Errno U32) (allocated : Bool) : Except Errno U32 × BucketArray IbPkeyKey :=
  labelSidSlow selIbPkeyFind selIbPkeyInsert (fun _ => .error .ENOMEM) table key answer allocated

def selNetifHashMax : Nat := 1024

/-- Namespace pointer and interface index. -/
structure NetifKey where
  ns : U64
  ifindex : U32
  deriving DecidableEq, Repr

/-- The interface table with `sel_netif_total`. -/
abbrev NetifTable := CountedTable (2 ^ 6) (LabelEntry NetifKey)

def selNetifHashfn (key : NetifKey) : Fin (2 ^ 6) :=
  maskIndex (key.ns + key.ifindex.signExtend 64) 6 (by decide)

def selNetifFind (table : NetifTable) (key : NetifKey) : Option (LabelEntry NetifKey) :=
  labelFind (table.slots (selNetifHashfn key)) key

/-- `sel_netif_insert`; `none` is `-ENOSPC`. -/
def selNetifInsert (table : NetifTable) (netif : LabelEntry NetifKey) : Option NetifTable :=
  table.insert selNetifHashMax (selNetifHashfn netif.key) netif

/-- `sel_netif_kill`. -/
def selNetifKill (table : NetifTable) (key : NetifKey) : NetifTable :=
  table.remove (selNetifHashfn key) (fun entry => entry.key = key)

def selNetifFlush (table : NetifTable) : NetifTable := table.flush

/-- `sel_netif_sid_slow`; a refused insertion frees the record and is no error. -/
def selNetifSidSlow (table : NetifTable) (key : NetifKey) (device : Bool)
    (answer : Except Errno U32) (allocated : Bool) : Except Errno U32 × NetifTable :=
  if device then
    labelSidSlow selNetifFind (fun table netif => (selNetifInsert table netif).getD table) .ok
      table key answer allocated
  else (.error .ENOENT, table)

/-- `sel_*_sid`: the search without the lock, in the table as it is then, and the slow
path if that finds nothing. -/
def labelSid {κ σ : Type} (find : σ → κ → Option (LabelEntry κ)) (seen table : σ) (key : κ)
    (slow : Except Errno U32 × σ) : Except Errno U32 × σ :=
  match find seen key with
  | some entry => (.ok entry.sid, table)
  | none => slow

def selNetportSid (seen table : BucketArray NetportKey) (key : NetportKey)
    (answer : Except Errno U32) (allocated : Bool) : Except Errno U32 × BucketArray NetportKey :=
  labelSid selNetportFind seen table key (selNetportSidSlow table key answer allocated)

def selNetnodeSid (seen table : BucketArray NetnodeKey) (key : NetnodeKey)
    (answer : Except Errno U32) (allocated : Bool) : Except Errno U32 × BucketArray NetnodeKey :=
  labelSid selNetnodeFind seen table key (selNetnodeSidSlow table key answer allocated)

def selIbPkeySid (seen table : BucketArray IbPkeyKey) (key : IbPkeyKey)
    (answer : Except Errno U32) (allocated : Bool) : Except Errno U32 × BucketArray IbPkeyKey :=
  labelSid selIbPkeyFind seen table key (selIbPkeySidSlow table key answer allocated)

def selNetifSid (seen table : NetifTable) (key : NetifKey) (device : Bool)
    (answer : Except Errno U32) (allocated : Bool) : Except Errno U32 × NetifTable :=
  labelSid selNetifFind seen table key (selNetifSidSlow table key device answer allocated)

/-! ## The caches under commits -/

inductive NetCache where
  | netif | netnode | netport | ibpkey
  deriving DecidableEq, Repr

namespace NetCache

abbrev Key : NetCache → Type
  | netif => NetifKey
  | netnode => NetnodeKey
  | netport => NetportKey
  | ibpkey => IbPkeyKey

abbrev Table : NetCache → Type
  | netif => NetifTable
  | netnode => BucketArray NetnodeKey
  | netport => BucketArray NetportKey
  | ibpkey => BucketArray IbPkeyKey

def find : (c : NetCache) → c.Table → c.Key → Option (LabelEntry c.Key)
  | netif => selNetifFind
  | netnode => selNetnodeFind
  | netport => selNetportFind
  | ibpkey => selIbPkeyFind

/-- Insertion as the slow path makes it: a refused record is dropped. -/
def insert : (c : NetCache) → c.Table → LabelEntry c.Key → c.Table
  | netif => fun table netif => (selNetifInsert table netif).getD table
  | netnode => selNetnodeInsert
  | netport => selNetportInsert
  | ibpkey => selIbPkeyInsert

def flush : (c : NetCache) → c.Table → c.Table
  | netif => selNetifFlush
  | netnode => selNetnodeFlush
  | netport => selNetportFlush
  | ibpkey => selIbPkeyFlush

def empty : (c : NetCache) → c.Table
  | netif => .empty
  | netnode | netport | ibpkey => fun _ => .empty

/-- The slow path of an interface that exists, and of the other three. -/
def sidSlow : (c : NetCache) → c.Table → c.Key → Except Errno U32 → Bool →
    Except Errno U32 × c.Table
  | netif => fun table key => selNetifSidSlow table key true
  | netnode => selNetnodeSidSlow
  | netport => selNetportSidSlow
  | ibpkey => selIbPkeySidSlow

/-- The lookup of a label. Only an interface can be missing (`device`). -/
def sid : (c : NetCache) → (seen table : c.Table) → c.Key → (device : Bool) →
    Except Errno U32 → (allocated : Bool) → Except Errno U32 × c.Table
  | netif => selNetifSid
  | netnode => fun seen table key _ => selNetnodeSid seen table key
  | netport => fun seen table key _ => selNetportSid seen table key
  | ibpkey => fun seen table key _ => selIbPkeySid seen table key

/-- The records in the table. -/
def Holds : (c : NetCache) → c.Table → LabelEntry c.Key → Prop
  | netif => fun table entry => ∃ i, entry ∈ table.slots i
  | netnode | netport | ibpkey => fun table entry => ∃ i, entry ∈ (table i).list

end NetCache

/-- How far the holder of a cache's lock has come: its search failed, and then
the policy has answered. -/
inductive LockPhase (κ : Type) where
  | missed (key : κ)
  | answered (key : κ) (sid : U32)

/-- A cache, and the thread that holds its lock inside the slow path. -/
structure NetCell (c : NetCache) where
  table : c.Table
  holder : Option (Nat × LockPhase c.Key)

/-- One answer of the policy query: the SID for a key, and how many policies had
been installed when it was given. -/
structure NetAnswer where
  cache : NetCache
  key : cache.Key
  sid : U32
  policy : Nat

/-- The callbacks `avc_ss_reset` runs, the last registered first. -/
def resetCallbacks : List NetCache := [.ibpkey, .netif, .netnode, .netport]

/-- The caches, the number of policies installed, the callbacks a commit still
has to run, the number of the last commit that has returned, and all answers. -/
structure NetMachine where
  cell : (c : NetCache) → NetCell c
  policy : Nat
  commit : Option (List NetCache)
  returned : Nat
  answers : List NetAnswer

/-- The unlocked search (`fastFind`) reads only. A hit of the search under the
lock releases it at once, so that `lock` changes nothing then. -/
inductive NetAction where
  | fastFind (c : NetCache) (key : c.Key)
  | lock (c : NetCache) (t : Nat) (key : c.Key)
  | query (c : NetCache) (answer : Except Errno U32)
  | insert (c : NetCache) (allocated : Bool)
  | netdevDown (key : NetifKey)
  | install
  | flushNext
  | resetFlush (c : NetCache)
  | commitReturn

namespace NetMachine

def setCell (s : NetMachine) (c : NetCache) (cell : NetCell c) : NetMachine :=
  { s with cell := Function.update s.cell c cell }

def flushCell (s : NetMachine) (c : NetCache) : NetMachine :=
  s.setCell c ⟨c.flush (s.cell c).table, none⟩

end NetMachine

/-- One action. Every step on a table needs its lock: a flush or a removal waits
until no slow path holds it. `resetFlush` is a flush of a mode switch. -/
def netStep (s : NetMachine) : NetAction → Option NetMachine
  | .fastFind _ _ => some s
  | .lock c t key =>
    match (s.cell c).holder with
    | some _ => none
    | none =>
      match c.find (s.cell c).table key with
      | some _ => some s
      | none => some (s.setCell c { s.cell c with holder := some (t, .missed key) })
  | .query c answer =>
    match (s.cell c).holder with
    | some (t, .missed key) =>
      match answer with
      | .error _ => some (s.setCell c { s.cell c with holder := none })
      | .ok sid =>
        some { s.setCell c { s.cell c with holder := some (t, .answered key sid) } with
          answers := { cache := c, key, sid, policy := s.policy } :: s.answers }
    | _ => none
  | .insert c allocated =>
    match (s.cell c).holder with
    | some (_, .answered key sid) =>
      some (s.setCell c
        { table := if allocated then c.insert (s.cell c).table { key, sid } else (s.cell c).table
          holder := none })
    | _ => none
  | .netdevDown key =>
    match (s.cell .netif).holder with
    | some _ => none
    | none => some (s.setCell .netif
        { s.cell .netif with table := selNetifKill (s.cell .netif).table key })
  | .install =>
    match s.commit with
    | none => some { s with policy := s.policy + 1, commit := some resetCallbacks }
    | some _ => none
  | .flushNext =>
    match s.commit with
    | some (c :: rest) =>
      match (s.cell c).holder with
      | some _ => none
      | none => some { s.flushCell c with commit := some rest }
    | _ => none
  | .resetFlush c =>
    match (s.cell c).holder with
    | some _ => none
    | none => some (s.flushCell c)
  | .commitReturn =>
    match s.commit with
    | some [] => some { s with commit := none, returned := s.policy }
    | _ => none

/-- A flush of a mode switch waits for the lock and is that of a commit. -/
theorem netStep_resetFlush {s s' : NetMachine} {c : NetCache}
    (stepped : netStep s (.resetFlush c) = some s') :
    (s.cell c).holder = none ∧ s' = s.flushCell c := by
  simp only [netStep] at stepped
  split at stepped
  · cases stepped
  · rename_i free
    cases stepped
    exact ⟨free, rfl⟩

/-- Boot: empty tables, no lock held, no commit under way. -/
structure NetStart (s : NetMachine) : Prop where
  cell : ∀ c, s.cell c = ⟨c.empty, none⟩
  commit : s.commit = none
  returned : s.returned = s.policy
  answers : s.answers = []

def netMachine : Machine NetMachine NetAction where
  start := NetStart
  step := netStep

end Ksrc.Source

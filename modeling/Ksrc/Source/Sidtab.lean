import Ksrc.Library.RadixTree
import Ksrc.Library.Transition
import Ksrc.Source.Context

/-!
# SID table

Source: `security/selinux/ss/sidtab.c`, `sidtab.h`.

The tree is a heap of nodes with a root for each level, as in the source. Sizes are
those of a 64-bit kernel with 4096-byte pages and the string cache. The hash table is
the list of all linked nodes with their buckets, newest first. A function that would
follow a null pointer, link a node twice, or never return gives `none`.
-/
namespace Ksrc.Source

open Library

/-- `SECINITSID_NUM`, `SECINITSID_UNLABELED` of `flask.h`. -/
def secinitsidNum : Nat := 27
def secinitsidUnlabeled : Nat := 3

def sidtabLeafEntries : Nat := 39
def sidtabInnerShift : Nat := 9
def sidtabMax : U32 := 0xffffffff

structure SidtabEntry where
  sid : U32
  hash : U32
  context : Context
  deriving DecidableEq, Repr

/-- An entry of a page from `kzalloc`. -/
def zeroEntry : SidtabEntry := { sid := 0, hash := 0, context := contextInit }

structure SidtabIsidEntry where
  set : Bool
  entry : SidtabEntry
  deriving DecidableEq, Repr

/-- A pointer to an entry: that of an initial SID, or a slot of a leaf. -/
inductive EntryRef where
  | isid (sid : Nat)
  | leaf (addr slot : Nat)
  deriving DecidableEq, Repr

/-- `struct sidtab`; `converting` tells whether `convert` is set. The isids are
indexed by their SID. -/
structure Sidtab where
  tree : RadixTree SidtabEntry
  count : U32
  frozen : Bool
  converting : Bool
  isids : Nat → SidtabIsidEntry
  contextToSid : List (Nat × EntryRef)

namespace Sidtab

def deref (s : Sidtab) : EntryRef → SidtabEntry
  | .isid sid => (s.isids sid).entry
  | .leaf addr slot => (s.tree.nodes addr).slot slot

/-- Write the entry a reference points to. -/
def write (s : Sidtab) (r : EntryRef) (e : SidtabEntry) : Sidtab :=
  match r with
  | .isid sid =>
    let isid := { s.isids sid with entry := e }
    { s with isids := Function.update s.isids sid isid }
  | .leaf addr slot => { s with tree := s.tree.setSlot addr slot e }

/-- `hash_add` of a node that is on no chain yet. -/
def hashAdd (s : Sidtab) (bucket : Nat) (r : EntryRef) : Option Sidtab :=
  if s.contextToSid.any (fun node => node.2 == r) then none
  else some { s with contextToSid := (bucket, r) :: s.contextToSid }

end Sidtab

def indexToSid (index : U32) : U32 := index + BitVec.ofNat 32 (secinitsidNum + 1)

def sidToIndex (sid : U32) : U32 := sid - BitVec.ofNat 32 (secinitsidNum + 1)

/-- `sidtab_init`. -/
def sidtabInit : Sidtab :=
  { tree := { roots := fun _ => none, nodes := fun _ => ⟨fun _ => none, fun _ => zeroEntry⟩,
              next := 0 }
    count := 0, frozen := false, converting := false
    isids := fun _ => { set := false, entry := zeroEntry }
    contextToSid := [] }

/-- The static `context_to_sid`; 0 when no entry has the context. -/
def contextToSid (j : Jhash) (s : Sidtab) (context : Context) (hash : U32) : U32 :=
  let found (node : Nat × EntryRef) : Bool :=
    node.1 == j.hashMin hash && (s.deref node.2).hash == hash &&
      contextCmp (s.deref node.2).context context
  match s.contextToSid.find? found with
  | some node => (s.deref node.2).sid
  | none => 0

/-- `context_cpy` into a new place: the copy, or what a failed one leaves behind. -/
def contextCpy (src : Context) (fault : Option Context) : Bool × Context :=
  match fault with
  | none => (true, src)
  | some partialCopy => (false, partialCopy)

/-- `sidtab_set_initial`. -/
def sidtabSetInitial (j : Jhash) (s : Sidtab) (sid : U32) (context : Context)
    (fault : Option Context) : Option (Except Errno Unit × Sidtab) :=
  if sid = 0 ∨ secinitsidNum < sid.toNat then some (.error .EINVAL, s)
  else
    let isid := s.isids sid.toNat
    match contextCpy context fault with
    | (false, partialCopy) =>
      some (.error .ENOMEM, s.write (.isid sid.toNat) { isid.entry with context := partialCopy })
    | (true, copy) =>
      let isid : SidtabIsidEntry := { set := true, entry := { isid.entry with context := copy } }
      let s := { s with isids := Function.update s.isids sid.toNat isid }
      let hash := contextComputeHash j context
      if contextToSid j s context hash = 0 then
        let s := s.write (.isid sid.toNat) { sid, hash, context := copy }
        (s.hashAdd (j.hashMin hash) (.isid sid.toNat)).map fun s => (.ok (), s)
      else some (.ok (), s)

/-- The loop of `sidtab_level_from_count` with `fuel` shifts left. Once `capacity`
is 0 it stays 0, and the loop does not end. -/
def levelLoop (count : U32) : Nat → U32 → Nat → Option Nat
  | 0, _, _ => none
  | fuel + 1, capacity, level =>
    if capacity < count then levelLoop count fuel (capacity <<< sidtabInnerShift) (level + 1)
    else some level

/-- `sidtab_level_from_count`; five shifts by nine clear any 32-bit capacity. -/
def sidtabLevelFromCount (count : U32) : Option Nat :=
  levelLoop count 5 (BitVec.ofNat 32 sidtabLeafEntries) 0

/-- `sidtab_alloc_roots`. -/
def sidtabAllocRoots (t : RadixTree SidtabEntry) (level : Nat) (allocs : List Bool) :
    Bool × RadixTree SidtabEntry × List Bool :=
  RadixTree.growRoots zeroEntry level t allocs

/-- `sidtab_do_lookup`: the outer `none` is a null root followed, or a level that is
never found; the inner one is the `NULL` the function returns. -/
def sidtabDoLookup (t : RadixTree SidtabEntry) (index : U32) (alloc : Bool) (allocs : List Bool) :
    Option (Option EntryRef × RadixTree SidtabEntry × List Bool) :=
  match sidtabLevelFromCount (index + 1) with
  | none => none
  | some level =>
    let leafIndex := index.toNat / sidtabLeafEntries
    let slot := index.toNat % sidtabLeafEntries
    let grown := if alloc then sidtabAllocRoots t level allocs else (true, t, allocs)
    match grown with
    | (false, t, allocs) => some (none, t, allocs)
    | (true, t, allocs) =>
      match t.roots level with
      | none => if level = 0 then some (none, t, allocs) else none
      | some root =>
        if alloc then
          match RadixTree.descendAlloc sidtabInnerShift zeroEntry level leafIndex root t allocs with
          | (leaf, t, allocs) => some (leaf.map (EntryRef.leaf · slot), t, allocs)
        else
          some ((t.descend sidtabInnerShift level leafIndex root).map (EntryRef.leaf · slot),
            t, allocs)

/-- `sidtab_lookup`. -/
def sidtabLookup (s : Sidtab) (index : U32) : Option (Option SidtabEntry) :=
  if s.count ≤ index then some none
  else
    match sidtabDoLookup s.tree index false [] with
    | none => none
    | some (r, _, _) => some (r.map s.deref)

/-- `sidtab_lookup_initial`. -/
def sidtabLookupInitial (s : Sidtab) (sid : Nat) : Option SidtabEntry :=
  if (s.isids sid).set then some (s.isids sid).entry else none

/-- `sidtab_search_core`. -/
def sidtabSearchCore (s : Sidtab) (sid : U32) (force : Bool) : Option (Option SidtabEntry) :=
  let unlabeled := sidtabLookupInitial s secinitsidUnlabeled
  if sid = 0 then some unlabeled
  else
    let entry := if secinitsidNum < sid.toNat then sidtabLookup s (sidToIndex sid)
      else some (sidtabLookupInitial s sid.toNat)
    match entry with
    | none => none
    | some none => some unlabeled
    | some (some entry) =>
      if entry.context.len = 0 ∨ force then some (some entry) else some unlabeled

def sidtabSearchEntry (s : Sidtab) (sid : U32) : Option (Option SidtabEntry) :=
  sidtabSearchCore s sid false

def sidtabSearchEntryForce (s : Sidtab) (sid : U32) : Option (Option SidtabEntry) :=
  sidtabSearchCore s sid true

/-- What one call of `services_convert_context` does: write a converted context, or
fail and leave the new entry's context in some state. -/
abbrev ConvertOutcome := Except (Errno × Context) Context

/-- The part of `sidtab_context_to_sid` under `s->convert`: the new context goes into
the target table too. -/
def sidtabConvertNew (j : Jhash) (target : Sidtab) (count : U32) (converted : ConvertOutcome)
    (allocs : List Bool) : Option (Except Errno Unit × Sidtab) :=
  match sidtabDoLookup target.tree count true allocs with
  | none => none
  | some (none, tree, _) => some (.error .ENOMEM, { target with tree })
  | some (some dst, tree, _) =>
    let target := { target with tree }
    match converted with
    | .error (e, left) =>
      some (.error e, target.write dst { target.deref dst with context := left })
    | .ok context =>
      let hash := contextComputeHash j context
      let target := target.write dst { sid := indexToSid count, hash, context }
      let target := { target with count := count + 1 }
      (target.hashAdd (j.hashMin hash) dst).map fun target => (.ok (), target)

/-- `sidtab_context_to_sid`, for a table and the target of its live conversion. The
search without the lock and the one under it are the same step here. -/
def sidtabContextToSid (j : Jhash) (s target : Sidtab) (context : Context)
    (allocs targetAllocs : List Bool) (fault : Option Context) (converted : ConvertOutcome) :
    Option (Except Errno U32 × Sidtab × Sidtab) :=
  let hash := contextComputeHash j context
  let sid := contextToSid j s context hash
  if sid ≠ 0 then some (.ok sid, s, target)
  else if s.frozen then some (.error .ESTALE, s, target)
  else
    let count := s.count
    if sidtabMax ≤ count then some (.error .EOVERFLOW, s, target)
    else
      match sidtabDoLookup s.tree count true allocs with
      | none => none
      | some (none, tree, _) => some (.error .ENOMEM, { s with tree }, target)
      | some (some dst, tree, _) =>
        let s := { s with tree }
        match contextCpy context fault with
        | (false, partialCopy) =>
          some (.error .ENOMEM,
            s.write dst { sid := indexToSid count, hash, context := partialCopy }, target)
        | (true, copy) =>
          let s := s.write dst { sid := indexToSid count, hash, context := copy }
          let converted := if s.converting then
              sidtabConvertNew j target count converted targetAllocs
            else some (.ok (), target)
          match converted with
          | none => none
          | some (.error e, target) =>
            -- `context_destroy(&dst->context)`
            some (.error e,
              s.write dst { sid := indexToSid count, hash, context := contextInit }, target)
          | some (.ok _, target) =>
            let s := { s with count := count + 1 }
            (s.hashAdd (j.hashMin hash) dst).map fun s => (.ok (indexToSid count), s, target)

end Ksrc.Source

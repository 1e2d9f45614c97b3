import Ksrc.Source.Sidtab

/-!
# Live conversion of a SID table

Source: `security/selinux/ss/sidtab.c` (`sidtab_convert`, `sidtab_convert_tree`,
`sidtab_convert_hashtable`, `sidtab_cancel_convert`, `sidtab_freeze_begin`),
`security/selinux/ss/policydb.c` (`policydb_load_isids`),
`security/selinux/ss/services.c` (`selinux_policy_commit`).

The system is one table with its callers and at most one conversion into the table
of a policy being loaded. What holds `s->lock` is one step; the walk of the old tree
is one step for each entry. `convert` is `services_convert_context`, which may also
depend on what is around it (`ε`: free memory, the mode).
-/
namespace Ksrc.Source

open Library

/-- One iteration of the leaf loop of `sidtab_convert_tree`, at position `pos` under the
roots of `level`: missing nodes of the new tree are allocated on the way down. -/
def sidtabConvertEntry (s target : Sidtab) (level : Nat) (pos : U32) (allocs : List Bool)
    (converted : Context → ConvertOutcome) : Option (Except Errno Unit × Sidtab) :=
  let leafIndex := pos.toNat / sidtabLeafEntries
  let slot := pos.toNat % sidtabLeafEntries
  match s.tree.leafAt sidtabInnerShift level leafIndex, target.tree.roots level with
  | some esrc, some edst =>
    match RadixTree.descendAlloc sidtabInnerShift zeroEntry level leafIndex edst target.tree
        allocs with
    | (none, tree, _) => some (.error .ENOMEM, { target with tree })
    | (some leaf, tree, _) =>
      let target := { target with tree }
      let dst := EntryRef.leaf leaf slot
      match converted (s.deref (.leaf esrc slot)).context with
      | .error (e, left) =>
        some (.error e, target.write dst { target.deref dst with context := left })
      | .ok context => some (.ok (), target.write dst { target.deref dst with context })
  | _, _ => none

/-- The loop of `sidtab_convert_hashtable` from index `i` on, `left` times. -/
def sidtabConvertHashtable (j : Jhash) : Nat → Nat → Sidtab → Option Sidtab
  | 0, _, s => some s
  | left + 1, i, s =>
    match sidtabDoLookup s.tree (BitVec.ofNat 32 i) false [] with
    | some (some r, _, _) =>
      let context := (s.deref r).context
      let hash := contextComputeHash j context
      let s := s.write r { sid := indexToSid (BitVec.ofNat 32 i), hash, context }
      match s.hashAdd (j.hashMin hash) r with
      | some s => sidtabConvertHashtable j left (i + 1) s
      | none => none
    | _ => none

/-- `policydb_load_isids`: the initial SIDs of the new policy, into a fresh table. -/
def policydbLoadIsids (j : Jhash) : List (U32 × Context) → Sidtab → Option Sidtab
  | [], s => some s
  | (sid, context) :: rest, s =>
    match sidtabSetInitial j s sid context none with
    | some (.ok _, s) => policydbLoadIsids j rest s
    | _ => none

/-- Where `sidtab_convert` is; `returned` is kept until cancel or freeze. -/
inductive ConvertPhase where
  | idle
  | walking (count : U32) (level : Nat) (pos : U32)
  | returned
  deriving DecidableEq, Repr

/-- The table in use, the target of the conversion, all calls of
`sidtab_context_to_sid` with their results, and the contexts new SIDs were made
for, in order. -/
structure SidtabSystem where
  source : Sidtab
  target : Sidtab
  phase : ConvertPhase
  calls : List (Context × Except Errno U32)
  created : List Context

inductive SidtabAction (ε : Type) where
  | setInitial (sid : U32) (context : Context) (fault : Option Context)
  | contextToSid (context : Context) (allocs targetAllocs : List Bool) (fault : Option Context)
      (env : ε)
  | freeze
  | cancel
  | convertBegin (isids : List (U32 × Context)) (allocs : List Bool)
  | convertEntry (allocs : List Bool) (env : ε)
  | convertHashtable

variable {ε : Type}

/-- The locked start of `sidtab_convert`: snapshot of the count and its level, and
allocation of the last leaf of the target. -/
def sidtabConvertBegin (s target : Sidtab) (allocs : List Bool) :
    Option (Except Errno (U32 × Nat) × Sidtab × Sidtab) :=
  if s.converting then some (.error .EBUSY, s, target)
  else
    match sidtabLevelFromCount s.count with
    | none => none
    | some level =>
      match sidtabDoLookup target.tree (s.count - 1) true allocs with
      | none => none
      | some (none, tree, _) => some (.error .ENOMEM, s, { target with tree })
      | some (some _, tree, _) =>
        some (.ok (s.count, level), { s with converting := true },
          { target with tree, count := s.count })

/-- A failed walk switches live conversion off under the lock; `sidtab_cancel_convert`
does the same. -/
def sidtabCancelConvert (s : Sidtab) : Sidtab := { s with converting := false }

/-- `sidtab_freeze_begin`. -/
def sidtabFreeze (s : Sidtab) : Sidtab := { s with frozen := true, converting := false }

def sidtabSystemStep (j : Jhash) (convert : ε → Context → ConvertOutcome) (s : SidtabSystem) :
    SidtabAction ε → Option SidtabSystem
  | .setInitial sid context fault =>
    match sidtabSetInitial j s.source sid context fault with
    | none => none
    | some (_, source) => some { s with source }
  | .contextToSid context allocs targetAllocs fault env =>
    match sidtabContextToSid j s.source s.target context allocs targetAllocs fault
        (convert env context) with
    | none => none
    | some (result, source, target) =>
      some { s with
        source, target
        calls := s.calls ++ [(context, result)]
        created := if source.count = s.source.count then s.created else s.created ++ [context] }
  | .freeze =>
    match s.phase with
    | .walking _ _ _ => none
    | _ => some { s with source := sidtabFreeze s.source, phase := .idle }
  | .cancel =>
    match s.phase with
    | .walking _ _ _ => none
    | _ => some { s with source := sidtabCancelConvert s.source, phase := .idle }
  | .convertBegin isids allocs =>
    match policydbLoadIsids j isids sidtabInit with
    | none => none
    | some target =>
      match sidtabConvertBegin s.source target allocs with
      | none => none
      | some (.error _, source, _) => some { s with source }
      | some (.ok (count, level), source, target) =>
        some { s with source, target, phase := .walking count level 0 }
  | .convertEntry allocs env =>
    match s.phase with
    | .walking count level pos =>
      if pos < count then
        match sidtabConvertEntry s.source s.target level pos allocs (convert env) with
        | none => none
        | some (.error _, target) =>
          some { s with source := sidtabCancelConvert s.source, target, phase := .idle }
        | some (.ok _, target) => some { s with target, phase := .walking count level (pos + 1) }
      else none
    | _ => none
  | .convertHashtable =>
    match s.phase with
    | .walking count _ pos =>
      if pos < count then none
      else
        match sidtabConvertHashtable j count.toNat 0 s.target with
        | none => none
        | some target => some { s with target, phase := .returned }
    | _ => none

/-- A table fresh from `sidtab_init`. -/
structure SidtabStart (s : SidtabSystem) : Prop where
  source : s.source = sidtabInit
  phase : s.phase = .idle
  calls : s.calls = []
  created : s.created = []

def sidtabMachine (j : Jhash) (convert : ε → Context → ConvertOutcome) :
    Machine SidtabSystem (SidtabAction ε) where
  start := SidtabStart
  step := sidtabSystemStep j convert

/-- `selinux_policy_commit` after a conversion that returned 0: the target is the table of the
policy in use. -/
def selinuxPolicyCommit (s : SidtabSystem) : Option SidtabSystem :=
  match s.phase with
  | .returned =>
    some { source := s.target, target := s.target, phase := .idle, calls := [], created := [] }
  | _ => none

inductive ReloadAction (ε : Type) where
  | sidtab (a : SidtabAction ε)
  | commit

/-- The table of the policy in use, over any number of loads. -/
def reloadMachine (j : Jhash) (convert : ε → Context → ConvertOutcome) :
    Machine SidtabSystem (ReloadAction ε) where
  start := SidtabStart
  step s
    | .sidtab a => sidtabSystemStep j convert s a
    | .commit => selinuxPolicyCommit s

end Ksrc.Source

import Ksrc.Source.KvCacheThreads
import Ksrc.Guarantees.KvCacheMap

/-!
# What a section of a call does to the dictionary

Any number of threads call on one dictionary; a ledger counts for each node how often it was
taken out of the tree and how often the reference of the tree was dropped. Of a section only what
it does to the tree and to the keys of the nodes is recorded here.
-/
namespace Ksrc.Guarantees.KvCacheThreadSteps
open Source Library KvCacheCalls RbTreeElements

variable {ν : Type} {s s' : Kvcache ν} {d node n : Nat} {m : U64} {call : KvcacheCall ν}
  {next : KvcacheNext ν}

section Sections

/-- The tree, the nodes that were given out and their keys stay. -/
structure SameTree (s s' : Kvcache ν) : Prop where
  dicts : s'.dicts = s.dicts
  allocated : s'.allocated = s.allocated
  keys : ∀ n, (s'.nodes n).key = (s.nodes n).key ∧ (s'.nodes n).module = (s.nodes n).module

theorem SameTree.refl (s : Kvcache ν) : SameTree s s := ⟨rfl, rfl, fun _ => ⟨rfl, rfl⟩⟩

theorem SameTree.trans {s'' : Kvcache ν} (first : SameTree s s') (second : SameTree s' s'') :
    SameTree s s'' :=
  ⟨second.dicts.trans first.dicts, second.allocated.trans first.allocated, fun n =>
    ⟨(second.keys n).1.trans (first.keys n).1, (second.keys n).2.trans (first.keys n).2⟩⟩

/-- A write to a node that keeps its key. -/
theorem setNode_sameTree {f : KvcacheNode ν → KvcacheNode ν}
    (keeps : ∀ cell, (f cell).key = cell.key ∧ (f cell).module = cell.module) :
    SameTree s (s.setNode node f) := by
  refine ⟨rfl, rfl, fun n => ?_⟩
  by_cases here : n = node
  · rw [here, setNode_self]
    exact keeps _
  · rw [setNode_other here]
    exact ⟨rfl, rfl⟩

theorem free_sameTree : SameTree s (kvcacheNodeFree s node) := setNode_sameTree fun _ => ⟨rfl, rfl⟩

theorem hold_sameTree : SameTree s (kvcacheNodeHold s node) := setNode_sameTree fun _ => ⟨rfl, rfl⟩

theorem drop_sameTree : SameTree s (kvcacheNodeDrop s node) := by
  by_cases last : (s.nodes node).refcount = 1
  · rw [kvcacheNodeDrop_last last]
    exact setNode_sameTree fun _ => ⟨rfl, rfl⟩
  · rw [kvcacheNodeDrop_held last]
    exact setNode_sameTree fun _ => ⟨rfl, rfl⟩

/-- The node that a stage is about to link, to take out, or to drop for the tree. -/
inductive Role where
  | linker (node : Nat)
  | deleter (node : Nat)
  | dropper (node : Nat)
  | other
  deriving DecidableEq

def stageRole : KvcacheStage ν → Role
  | .link node => .linker node
  | .unlink node => .deleter node
  | .dropTree node => .dropper node
  | _ => .other

def nextRole : KvcacheNext ν → Role
  | .goes stage => stageRole stage
  | .returns _ => .other

/-- A set to `nil`. -/
def isDelete : KvcacheCall ν → Bool
  | .set _ .nil _ => true
  | _ => false

/-- What a section does, by what the thread was about to do and is about to do afterwards. -/
inductive SectionEffect (s : Kvcache ν) (d : Nat) (m : U64) (call : KvcacheCall ν)
    (stage : KvcacheStage ν) : Role → Kvcache ν → Prop
  | same {after : Kvcache ν} (about : stageRole stage = .other ∨ ∃ n, stageRole stage = .linker n)
      (tree : SameTree s after) : SectionEffect s d m call stage .other after
  | finds {cell : Nat} {after : Kvcache ν} (about : stage = .lookup) (deletes : isDelete call = true)
      (found : nodeAt s d m (callKey call) = some cell) (tree : SameTree s after) :
      SectionEffect s d m call stage (.deleter cell) after
  | allocates {role : Role} {after : Kvcache ν} (about : stageRole stage = .other)
      (dicts : after.dicts = s.dicts) (allocated : after.allocated = s.allocated + 1)
      (gives : role = .other ∨ role = .linker s.allocated) :
      SectionEffect s d m call stage role after
  | links {cell : Nat} {after : Kvcache ν} (root : RbTree Nat) (about : stageRole stage = .linker cell)
      (perm : root.foreach.Perm (cell :: linkedNodes s d))
      (dicts : after.dicts = Function.update s.dicts d
        { s.dicts d with root, count := (s.dicts d).count + 1 })
      (allocated : after.allocated = s.allocated) :
      SectionEffect s d m call stage .other after
  | unlinks {cell : Nat} (about : stageRole stage = .deleter cell) :
      SectionEffect s d m call stage (.dropper cell) (kvcacheModuleUnlink s d m cell)
  | drops {cell : Nat} {after : Kvcache ν} (about : stageRole stage = .dropper cell)
      (tree : SameTree s after) : SectionEffect s d m call stage .other after

theorem lookup_effect (done : kvcacheLookupSection s d m call = (next, s')) :
    SectionEffect s d m call .lookup (nextRole next) s' := by
  unfold kvcacheLookupSection at done
  rw [kvcacheLookup_eq] at done
  cases found : nodeAt s d m (callKey call) with
  | none =>
    rw [found] at done
    dsimp only at done
    split at done <;> (cases done; exact .same (.inl rfl) (.refl s))
  | some node =>
    rw [found] at done
    dsimp only at done
    split at done
    · cases done
      exact .finds rfl rfl found hold_sameTree
    all_goals
      cases done
      exact .same (.inl rfl) hold_sameTree

theorem alloc_effect (done : kvcacheAllocSection s d m call = (next, s')) :
    SectionEffect s d m call .alloc (nextRole next) s' := by
  unfold kvcacheAllocSection at done
  simp only [alloc_eq, created_fill] at done
  split at done
  · split at done
    · cases done
      exact .same (.inl rfl) (.refl s)
    · split at done
      · cases done
        exact .allocates rfl rfl rfl (.inl rfl)
      · cases done
        exact .allocates rfl rfl rfl (.inr rfl)
  · split at done
    · cases done
      exact .same (.inl rfl) (.refl s)
    · cases done
      exact .allocates rfl rfl rfl (.inr rfl)
  · cases done
    exact .same (.inl rfl) (.refl s)

theorem link_effect (done : kvcacheLinkSection s d m call node = (next, s')) :
    SectionEffect s d m call (.link node) (nextRole next) s' := by
  unfold kvcacheLinkSection kvcacheModuleLink at done
  split at done
  · rename_i linked
    split at linked
    · cases linked
      cases done
      exact .same (.inr ⟨node, rfl⟩) free_sameTree
    · split at linked
      · cases linked
      · split at linked <;> cases linked
  · rename_i linked
    split at linked
    · cases linked
    · split at linked
      · cases linked
        split at done
        all_goals
          cases done
          exact .same (.inr ⟨node, rfl⟩) (hold_sameTree.trans free_sameTree)
      · split at linked <;> cases linked
  · rename_i linked
    split at linked
    · cases linked
    · split at linked
      · cases linked
      · rename_i root inserted
        have perm := (insert_none inserted).2.1
        split at linked
        all_goals
          cases linked
          split at done
          all_goals
            cases done
            exact .links root rfl perm rfl rfl

/-- What each section does. -/
theorem section_effect [Add ν] {stage : KvcacheStage ν}
    (done : kvcacheSection s d m call stage = (next, s')) :
    SectionEffect s d m call stage (nextRole next) s' := by
  cases stage with
  | lookup => exact lookup_effect done
  | alloc => exact alloc_effect done
  | link node => exact link_effect done
  | refill node value =>
    simp only [kvcacheSection, kvcacheNodeRefill] at done
    split at done
    · rename_i refilled
      split at refilled
      · cases refilled
        cases done
        exact .same (.inl rfl) (.refl s)
      · cases refilled
    · rename_i refilled
      split at refilled
      · cases refilled
      · cases refilled
        cases done
        exact .same (.inl rfl) (setNode_sameTree fun _ => ⟨rfl, rfl⟩)
  | update node n =>
    simp only [kvcacheSection, kvcacheUpdate] at done
    split at done
    · rename_i updated
      split at updated
      · cases updated
      · cases updated
        cases done
        exact .same (.inl rfl) (.refl s)
    · rename_i updated
      split at updated
      · cases updated
        cases done
        exact .same (.inl rfl) (setNode_sameTree fun _ => ⟨rfl, rfl⟩)
      · cases updated
  | read node =>
    cases done
    exact .same (.inl rfl) (.refl s)
  | unlink node =>
    cases done
    exact .unlinks rfl
  | dropTree node =>
    cases done
    exact .drops rfl drop_sameTree
  | drop node result =>
    cases done
    exact .same (.inl rfl) drop_sameTree

end Sections

section Alone

variable [Add ν] {k : List U8} {n : ν} {value : LuaValue ν} {alloc : Bool} {turns : Nat}

theorem alone_update : kvcacheAlone d m call (turns + 2) (.update node n) s =
    some (match kvcacheUpdate s node n with
      | (.error e, s) => (.error e, kvcacheNodeDrop s node)
      | (.ok n, s) => (.value (.number n), kvcacheNodeDrop s node)) := by
  rw [kvcacheAlone_succ, kvcacheSection]
  cases kvcacheUpdate s node n with
  | mk answer after => cases answer <;> rfl

theorem alone_refill : kvcacheAlone d m call (turns + 2) (.refill node value) s =
    some (match kvcacheNodeRefill s node value with
      | (.error e, s) => (.error e, kvcacheNodeDrop s node)
      | (.ok (), s) => (.value (.boolean true), kvcacheNodeDrop s node)) := by
  rw [kvcacheAlone_succ, kvcacheSection]
  cases kvcacheNodeRefill s node value with
  | mk answer after => cases answer <;> rfl

theorem alone_link_incr : kvcacheAlone d m (.incr k n alloc) (turns + 3) (.link node) s =
    some (match kvcacheModuleLink s d m node with
      | (.range, s) => (.error .ERANGE, kvcacheNodeFree s node)
      | (.prev prev, s) =>
        match kvcacheUpdate (kvcacheNodeFree s node) prev n with
        | (.error e, s) => (.error e, kvcacheNodeDrop s prev)
        | (.ok n, s) => (.value (.number n), kvcacheNodeDrop s prev)
      | (.linked, s) => (.value (.number n), s)) := by
  rw [kvcacheAlone_succ, kvcacheSection, kvcacheLinkSection]
  cases kvcacheModuleLink s d m node with
  | mk answer after =>
    cases answer with
    | prev node => exact alone_update
    | range => rfl
    | linked => rfl

theorem alone_link_set : kvcacheAlone d m (.set k value alloc) (turns + 3) (.link node) s =
    some (match kvcacheModuleLink s d m node with
      | (.range, s) => (.error .ERANGE, kvcacheNodeFree s node)
      | (.prev prev, s) =>
        match kvcacheNodeRefill (kvcacheNodeFree s node) prev value with
        | (.error e, s) => (.error e, kvcacheNodeDrop s prev)
        | (.ok (), s) => (.value (.boolean true), kvcacheNodeDrop s prev)
      | (.linked, s) => (.value (.boolean true), s)) := by
  rw [kvcacheAlone_succ, kvcacheSection, kvcacheLinkSection]
  cases kvcacheModuleLink s d m node with
  | mk answer after =>
    cases answer with
    | prev node => exact alone_refill
    | range => rfl
    | linked => rfl

theorem alone_get : kvcacheAlone d m (.get k) 5 .lookup s = some (kvcacheGet s d m k) := by
  unfold kvcacheGet
  rw [kvcacheAlone_succ, kvcacheSection, kvcacheLookupSection, callKey]
  cases kvcacheLookup s d m k with
  | mk found after => cases found <;> rfl

theorem alone_incr :
    kvcacheAlone d m (.incr k n alloc) 5 .lookup s = some (kvcacheIncr s d m k n alloc) := by
  unfold kvcacheIncr
  rw [kvcacheAlone_succ, kvcacheSection, kvcacheLookupSection, callKey]
  cases kvcacheLookup s d m k with
  | mk found after =>
    cases found with
    | some node => exact alone_update
    | none =>
      dsimp only
      rw [kvcacheAlone_succ, kvcacheSection, kvcacheAllocSection]
      cases alloc with
      | false => rfl
      | true => exact alone_link_incr

theorem alone_set :
    kvcacheAlone d m (.set k value alloc) 5 .lookup s = some (kvcacheSet s d m k value alloc) := by
  unfold kvcacheSet
  rw [kvcacheAlone_succ, kvcacheSection, kvcacheLookupSection, callKey]
  cases kvcacheLookup s d m k with
  | mk found after =>
    cases found with
    | some node =>
      cases value with
      | nil => rfl
      | _ => exact alone_refill
    | none =>
      cases value with
      | nil => rfl
      | other => cases alloc <;> rfl
      | _ =>
        dsimp only
        rw [kvcacheAlone_succ, kvcacheSection, kvcacheAllocSection]
        cases alloc with
        | false => rfl
        | true => exact alone_link_set

/-- The sections of a call that runs alone come to the call. -/
theorem alone_call : kvcacheAlone d m call 5 .lookup s = some (kvcacheCall s d m call) := by
  cases call with
  | set key value alloc => exact alone_set
  | get key => exact alone_get
  | incr key n alloc => exact alone_incr

end Alone

section Machine

/-- One more at an index. -/
def bump (f : Nat → Nat) (i : Nat) : Nat → Nat := Function.update f i (f i + 1)

/-- Threads at work on one dictionary, with the calls that have returned, the latest first. The
ledger counts for each node the times it was taken out of the tree, and those its reference from the
tree was dropped. -/
structure KvcacheRun (ν : Type) where
  cache : Kvcache ν
  thread : Nat → Option (KvcacheThread ν)
  returned : List (Returned ν)
  removals : Nat → Nat
  treeDrops : Nat → Nat

inductive KvcacheAct (ν : Type) where
  | call (t : Nat) (m : U64) (call : KvcacheCall ν)
  | step (t : Nat)

/-- What a section adds to the ledger. -/
def KvcacheRun.record (r : KvcacheRun ν) (stage : KvcacheStage ν) (cache : Kvcache ν) : KvcacheRun ν :=
  match stage with
  | .unlink node => { r with cache, removals := bump r.removals node }
  | .dropTree node => { r with cache, treeDrops := bump r.treeDrops node }
  | _ => { r with cache }

/-- Where a section leaves its thread. -/
def KvcacheRun.advance (r : KvcacheRun ν) (t : Nat) (thread : KvcacheThread ν) :
    KvcacheNext ν → KvcacheRun ν
  | .goes stage => { r with thread := Function.update r.thread t (some { thread with stage }) }
  | .returns result =>
    { r with
      thread := Function.update r.thread t none
      returned := ⟨thread.module, thread.call, result⟩ :: r.returned }

def runStep [Add ν] (d : Nat) (r : KvcacheRun ν) : KvcacheAct ν → Option (KvcacheRun ν)
  | .call t m call =>
    match r.thread t with
    | none => some { r with thread := Function.update r.thread t (some ⟨m, call, .lookup⟩) }
    | some _ => none
  | .step t =>
    match r.thread t with
    | none => none
    | some thread =>
      let (next, cache) := kvcacheSection r.cache d thread.module thread.call thread.stage
      some ((r.record thread.stage cache).advance t thread next)

/-- No call has been made on the dictionary yet. -/
structure Unused (d : Nat) (r : KvcacheRun ν) : Prop where
  dict : r.cache.dicts d = kvcacheDictInit
  threads : ∀ t, r.thread t = none
  returned : r.returned = []
  removals : ∀ n, r.removals n = 0
  treeDrops : ∀ n, r.treeDrops n = 0

def kvcacheThreads [Add ν] (d : Nat) : Machine (KvcacheRun ν) (KvcacheAct ν) where
  start := Unused d
  step := runStep d

/-- What a thread is about to do. -/
def KvcacheRun.role (r : KvcacheRun ν) (t : Nat) : Role :=
  match r.thread t with
  | none => .other
  | some thread => stageRole thread.stage

variable {r r' : KvcacheRun ν} {t : Nat} {thread : KvcacheThread ν} {stage : KvcacheStage ν}
  {cache : Kvcache ν}

@[simp] theorem record_cache : (r.record stage cache).cache = cache := by
  cases stage <;> rfl

@[simp] theorem record_thread : (r.record stage cache).thread = r.thread := by
  cases stage <;> rfl

@[simp] theorem advance_cache : (r.advance t thread next).cache = r.cache := by
  cases next <;> rfl

@[simp] theorem advance_removals : (r.advance t thread next).removals = r.removals := by
  cases next <;> rfl

@[simp] theorem advance_treeDrops : (r.advance t thread next).treeDrops = r.treeDrops := by
  cases next <;> rfl

theorem advance_role : (r.advance t thread next).role = Function.update r.role t (nextRole next) := by
  funext t'
  by_cases here : t' = t
  · subst here
    rw [Function.update_self]
    unfold KvcacheRun.role
    cases next with
    | goes stage =>
      simp only [KvcacheRun.advance, Function.update_self]
      rfl
    | returns result =>
      simp only [KvcacheRun.advance, Function.update_self]
      rfl
  · rw [Function.update_of_ne here]
    unfold KvcacheRun.role
    cases next with
    | goes stage => simp only [KvcacheRun.advance, Function.update_of_ne here]
    | returns result => simp only [KvcacheRun.advance, Function.update_of_ne here]

theorem call_role {call : KvcacheCall ν} (idle : r.thread t = none) :
    KvcacheRun.role { r with thread := Function.update r.thread t (some ⟨m, call, .lookup⟩) } =
      r.role := by
  funext t'
  unfold KvcacheRun.role
  by_cases here : t' = t
  · rw [here, idle]
    simp only [Function.update_self]
    rfl
  · simp only [Function.update_of_ne here]

theorem runStep_section [Add ν] (here : r.thread t = some thread) : runStep d r (.step t) =
    some ((r.record thread.stage
      (kvcacheSection r.cache d thread.module thread.call thread.stage).2).advance t thread
      (kvcacheSection r.cache d thread.module thread.call thread.stage).1) := by
  unfold runStep
  dsimp only
  rw [here]

/-- A step of a thread is one section. -/
theorem step_section [Add ν] (stepped : runStep d r (.step t) = some r') :
    ∃ thread next cache, r.thread t = some thread ∧
      kvcacheSection r.cache d thread.module thread.call thread.stage = (next, cache) ∧
      r' = (r.record thread.stage cache).advance t thread next := by
  cases here : r.thread t with
  | none =>
    unfold runStep at stepped
    dsimp only at stepped
    rw [here] at stepped
    cases stepped
  | some thread =>
    rw [runStep_section here] at stepped
    cases stepped
    exact ⟨thread, _, _, rfl, rfl, rfl⟩

/-- No call on an empty dictionary. -/
def unusedRun : KvcacheRun Int where
  cache := { dicts := fun _ => kvcacheDictInit, nodes := fun _ => ⟨[], 0, 0, 0, .nil, false⟩,
             allocated := 0, kvnodes := fun _ => [], kvnodesCount := fun _ => 0 }
  thread := fun _ => none
  returned := []
  removals := fun _ => 0
  treeDrops := fun _ => 0

theorem unusedRun_unused : Unused 0 unusedRun := ⟨rfl, fun _ => rfl, rfl, fun _ => rfl, fun _ => rfl⟩

end Machine

end Ksrc.Guarantees.KvCacheThreadSteps

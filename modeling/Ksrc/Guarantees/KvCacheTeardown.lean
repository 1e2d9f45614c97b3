import Ksrc.Source.KvCacheTeardown
import Ksrc.Guarantees.KvCacheThreadSteps

/-!
# Where the nodes are while modules and dictionaries are taken down

Under `nodes_gc_lock` either the collection of a module takes a node out of the tree of its
dictionary, or the end of the dictionary takes it out of the list of its module, so that one of them
is left with it. Each step of the two keeps this, as long as no dictionary ends while the lock of the
dictionary is held.
-/
namespace Ksrc.Guarantees.KvCacheTeardown
open Source Library KvCacheCalls KvCacheThreadSteps RbTreeElements

variable {ν : Type} {s s' : KvTeardown ν} {c : Kvcache ν} {d d' n n' : Nat} {m m' : U64}
  {rest : List Nat}

section Places

theorem mem_rest_iff {node : Nat} (outside : node ∉ rest) :
    n ∈ node :: rest ∧ n ≠ node ↔ n ∈ rest := by
  rw [List.mem_cons]
  constructor
  · rintro ⟨rfl | inRest, differs⟩
    · exact absurd rfl differs
    · exact inRest
  · intro inRest
    refine ⟨.inr inRest, ?_⟩
    rintro rfl
    exact outside inRest

/-- The part of a module's list that its collection has still to take out of the trees. -/
structure Walks (s : KvTeardown ν) (m : U64) (rest : List Nat) : Prop where
  once : rest.Nodup
  listed : ∀ n ∈ rest, n ∈ s.cache.kvnodes m
  linked : ∀ n ∈ s.cache.kvnodes m, n ∈ linkedNodes s.cache (s.cache.nodes n).dict ↔ n ∈ rest

/-- `kvcache_dict_free` has not come to the lists of the modules. -/
def Waits (stage : FreeStage) : Prop := stage = .test ∨ stage = .lock

/-- What holds of a module's list at each stage of its collection. -/
def GcOk (s : KvTeardown ν) (m : U64) : GcStage → Prop
  | .idle => ∀ n ∈ s.cache.kvnodes m, n ∈ linkedNodes s.cache (s.cache.nodes n).dict
  | .walk rest => s.nodesGcLock = some (.gc m) ∧ Walks s m rest
  | .inside node rest => s.nodesGcLock = some (.gc m) ∧
      s.dictLock (s.cache.nodes node).dict = some m ∧ Walks s m (node :: rest)
  | .leaving node rest => s.nodesGcLock = some (.gc m) ∧
      s.dictLock (s.cache.nodes node).dict = some m ∧
      Waits (s.free (s.cache.nodes node).dict) ∧ Walks s m rest
  | .puts => ∀ n ∈ s.cache.kvnodes m, n ∉ linkedNodes s.cache (s.cache.nodes n).dict

/-- What holds of a tree at each stage of the end of its dictionary. -/
def FreeOk (s : KvTeardown ν) (d : Nat) : FreeStage → Prop
  | .test | .lock => ∀ n ∈ linkedNodes s.cache d, (s.cache.nodes n).module ≠ 0 →
      n ∈ s.cache.kvnodes (s.cache.nodes n).module
  | .delist rest => s.nodesGcLock = some (.free d) ∧ rest.Nodup ∧
      (∀ n ∈ rest, n ∈ linkedNodes s.cache d) ∧
      ∀ n ∈ linkedNodes s.cache d, (s.cache.nodes n).module ≠ 0 →
        (n ∈ s.cache.kvnodes (s.cache.nodes n).module ↔ n ∈ rest)
  | .dismantle => ∀ n ∈ linkedNodes s.cache d, (s.cache.nodes n).module ≠ 0 →
      n ∉ s.cache.kvnodes (s.cache.nodes n).module
  | .returned => linkedNodes s.cache d = []

/-- Where the nodes are. -/
structure Places (s : KvTeardown ν) : Prop where
  tree : ∀ d, (linkedNodes s.cache d).Nodup
  home : ∀ d, ∀ n ∈ linkedNodes s.cache d, (s.cache.nodes n).dict = d ∧ n < s.cache.allocated
  count : ∀ d, (s.cache.dicts d).count = (linkedNodes s.cache d).length
  list : ∀ m, (s.cache.kvnodes m).Nodup
  owner : ∀ m, ∀ n ∈ s.cache.kvnodes m, (s.cache.nodes n).module = m ∧ m ≠ 0 ∧ n < s.cache.allocated
  gc : ∀ m, GcOk s m (s.gc m)
  free : ∀ d, FreeOk s d (s.free d)

/-- What a step leaves to the collection of a module that does not take it. -/
structure GcFrame (s s' : KvTeardown ν) (m : U64) : Prop where
  home : ∀ n, (s'.cache.nodes n).dict = (s.cache.nodes n).dict
  shrinks : ∀ n ∈ s'.cache.kvnodes m, n ∈ s.cache.kvnodes m
  keeps : s.nodesGcLock = some (.gc m) → ∀ n ∈ s.cache.kvnodes m, n ∈ s'.cache.kvnodes m
  linked : ∀ n ∈ s'.cache.kvnodes m, n ∈ linkedNodes s'.cache (s.cache.nodes n).dict ↔
    n ∈ linkedNodes s.cache (s.cache.nodes n).dict
  lock : s.nodesGcLock = some (.gc m) → s'.nodesGcLock = some (.gc m)
  dictLock : ∀ d, s.dictLock d = some m → s'.dictLock d = some m
  waits : s.nodesGcLock = some (.gc m) → ∀ d, s.dictLock d = some m → Waits (s.free d) →
    Waits (s'.free d)

theorem Walks.frame (walks : Walks s m rest) (frame : GcFrame s s' m)
    (lock : s.nodesGcLock = some (.gc m)) : Walks s' m rest := by
  refine ⟨walks.once, fun n inside => frame.keeps lock n (walks.listed n inside), fun n inside => ?_⟩
  rw [frame.home, frame.linked n inside]
  exact walks.linked n (frame.shrinks n inside)

theorem GcOk.frame {stage : GcStage} (ok : GcOk s m stage) (frame : GcFrame s s' m) :
    GcOk s' m stage := by
  cases stage with
  | idle =>
    intro n inside
    rw [frame.home, frame.linked n inside]
    exact ok n (frame.shrinks n inside)
  | walk rest =>
    obtain ⟨lock, walks⟩ := ok
    exact ⟨frame.lock lock, walks.frame frame lock⟩
  | inside node rest =>
    obtain ⟨lock, dictLock, walks⟩ := ok
    refine ⟨frame.lock lock, ?_, walks.frame frame lock⟩
    rw [frame.home]
    exact frame.dictLock _ dictLock
  | leaving node rest =>
    obtain ⟨lock, dictLock, waits, walks⟩ := ok
    refine ⟨frame.lock lock, ?_, ?_, walks.frame frame lock⟩
    · rw [frame.home]
      exact frame.dictLock _ dictLock
    · rw [frame.home]
      exact frame.waits lock _ dictLock waits
  | puts =>
    intro n inside
    rw [frame.home, frame.linked n inside]
    exact ok n (frame.shrinks n inside)

/-- What a step leaves to the end of a dictionary that does not take it. -/
structure FreeFrame (s s' : KvTeardown ν) (d : Nat) : Prop where
  owner : ∀ n, (s'.cache.nodes n).module = (s.cache.nodes n).module
  shrinks : ∀ n ∈ linkedNodes s'.cache d, n ∈ linkedNodes s.cache d
  keeps : s.nodesGcLock = some (.free d) → ∀ n ∈ linkedNodes s.cache d, n ∈ linkedNodes s'.cache d
  listed : ∀ n ∈ linkedNodes s'.cache d, n ∈ s'.cache.kvnodes (s.cache.nodes n).module ↔
    n ∈ s.cache.kvnodes (s.cache.nodes n).module
  lock : s.nodesGcLock = some (.free d) → s'.nodesGcLock = some (.free d)

theorem FreeOk.frame {stage : FreeStage} (ok : FreeOk s d stage) (frame : FreeFrame s s' d) :
    FreeOk s' d stage := by
  cases stage with
  | delist rest =>
    obtain ⟨lock, once, inside, iff⟩ := ok
    refine ⟨frame.lock lock, once, fun n member => frame.keeps lock n (inside n member), ?_⟩
    intro n member hasModule
    rw [frame.owner] at hasModule ⊢
    rw [frame.listed n member]
    exact iff n (frame.shrinks n member) hasModule
  | returned =>
    refine List.eq_nil_iff_forall_not_mem.mpr fun n member => ?_
    have inside := frame.shrinks n member
    rw [show linkedNodes s.cache d = [] from ok] at inside
    exact List.not_mem_nil inside
  | _ =>
    intro n member hasModule
    rw [frame.owner] at hasModule ⊢
    rw [frame.listed n member]
    exact ok n (frame.shrinks n member) hasModule

end Places

section Moves

variable {stage : GcStage} {freeStage : FreeStage}

theorem gc_all (places : Places s) (now : s'.gc = Function.update s.gc m stage)
    (mine : GcOk s' m stage) (others : ∀ m' ≠ m, GcFrame s s' m') : ∀ m', GcOk s' m' (s'.gc m') := by
  intro m'
  rw [now]
  by_cases same : m' = m
  · rw [same, Function.update_self]
    exact mine
  · rw [Function.update_of_ne same]
    exact (places.gc m').frame (others m' same)

theorem free_all (places : Places s) (now : s'.free = Function.update s.free d freeStage)
    (mine : FreeOk s' d freeStage) (others : ∀ d' ≠ d, FreeFrame s s' d') :
    ∀ d', FreeOk s' d' (s'.free d') := by
  intro d'
  rw [now]
  by_cases same : d' = d
  · rw [same, Function.update_self]
    exact mine
  · rw [Function.update_of_ne same]
    exact (places.free d').frame (others d' same)

/-- The trees and the lists stay. -/
structure SameShelves (c c' : Kvcache ν) : Prop where
  home : ∀ n, (c'.nodes n).dict = (c.nodes n).dict
  owner : ∀ n, (c'.nodes n).module = (c.nodes n).module
  dicts : c'.dicts = c.dicts
  kvnodes : c'.kvnodes = c.kvnodes
  allocated : c'.allocated = c.allocated

theorem SameShelves.refl (c : Kvcache ν) : SameShelves c c :=
  ⟨fun _ => rfl, fun _ => rfl, rfl, rfl, rfl⟩

theorem drop_shelves {node : Nat} : SameShelves c (kvcacheNodeDrop c node) := by
  refine ⟨fun n => ?_, fun n => (drop_sameTree.keys n).2, drop_dicts, ?_, drop_allocated⟩
  · by_cases same : n = node
    · by_cases last : (c.nodes node).refcount = 1
      · rw [same, kvcacheNodeDrop_last last, setNode_self]
      · rw [same, kvcacheNodeDrop_held last, setNode_self]
    · rw [drop_other same]
  · unfold kvcacheNodeDrop
    dsimp only
    split <;> rfl

theorem GcFrame.still (same : SameShelves s.cache s'.cache)
    (lock : s.nodesGcLock = some (.gc m) → s'.nodesGcLock = some (.gc m))
    (dictLock : ∀ d, s.dictLock d = some m → s'.dictLock d = some m)
    (waits : s.nodesGcLock = some (.gc m) → ∀ d, s.dictLock d = some m → Waits (s.free d) →
      Waits (s'.free d)) : GcFrame s s' m := by
  refine ⟨same.home, ?_, ?_, ?_, lock, dictLock, waits⟩
  · rw [same.kvnodes]
    exact fun n inside => inside
  · rw [same.kvnodes]
    exact fun _ n inside => inside
  · intro n _
    rw [linked_congr same.dicts]

theorem FreeFrame.still (same : SameShelves s.cache s'.cache)
    (lock : s.nodesGcLock = some (.free d) → s'.nodesGcLock = some (.free d)) :
    FreeFrame s s' d := by
  refine ⟨same.owner, ?_, ?_, ?_, lock⟩
  · rw [linked_congr same.dicts]
    exact fun n inside => inside
  · rw [linked_congr same.dicts]
    exact fun _ n inside => inside
  · intro n _
    rw [same.kvnodes]

theorem Places.still (places : Places s) (same : SameShelves s.cache s'.cache)
    (gc : ∀ m, GcOk s' m (s'.gc m)) (free : ∀ d, FreeOk s' d (s'.free d)) : Places s' := by
  refine ⟨fun d => ?_, fun d n inside => ?_, fun d => ?_, fun m => ?_, fun m n inside => ?_, gc, free⟩
  · rw [linked_congr same.dicts]
    exact places.tree d
  · rw [linked_congr same.dicts] at inside
    rw [same.home, same.allocated]
    exact places.home d n inside
  · rw [linked_congr same.dicts, same.dicts]
    exact places.count d
  · rw [same.kvnodes]
    exact places.list m
  · rw [same.kvnodes] at inside
    rw [same.owner, same.allocated]
    exact places.owner m n inside

end Moves

section Collection

variable {node : Nat}

/-- A collection takes `nodes_gc_lock`. -/
theorem Places.gcLock (places : Places s) (stage : s.gc m = .idle) (unlocked : s.nodesGcLock = none) :
    Places ({ s with nodesGcLock := some (.gc m) }.setGc m (.walk (s.cache.kvnodes m))) := by
  have linked := places.gc m
  rw [stage] at linked
  have walks : Walks s m (s.cache.kvnodes m) :=
    ⟨places.list m, fun n inside => inside, fun n inside => ⟨fun _ => inside, fun _ => linked n inside⟩⟩
  refine places.still (.refl _) (gc_all places rfl ⟨rfl, walks.once, walks.listed, walks.linked⟩ ?_) ?_
  · intro m' _
    refine GcFrame.still (.refl _) (fun lock => ?_) (fun d lock => lock) fun _ d _ waits => waits
    rw [unlocked] at lock
    cases lock
  · intro d
    refine (places.free d).frame (FreeFrame.still (.refl _) fun lock => ?_)
    rw [unlocked] at lock
    cases lock

theorem Places.gcUnlock (places : Places s) (stage : s.gc m = .walk []) :
    Places ({ s with nodesGcLock := none }.setGc m .puts) := by
  have ok := places.gc m
  rw [stage] at ok
  obtain ⟨mine, walks⟩ := ok
  refine places.still (.refl _) (gc_all places rfl ?_ ?_) ?_
  · intro n inside linked
    exact List.not_mem_nil ((walks.linked n inside).mp linked)
  · intro m' differs
    refine GcFrame.still (.refl _) (fun lock => ?_) (fun d lock => lock) fun _ d _ waits => waits
    rw [mine] at lock
    cases lock
    exact absurd rfl differs
  · intro d
    refine (places.free d).frame (FreeFrame.still (.refl _) fun lock => ?_)
    rw [mine] at lock
    cases lock

/-- A collection takes the lock of the dictionary of its next node. -/
theorem Places.gcEnter (places : Places s) (stage : s.gc m = .walk (node :: rest))
    (unlocked : s.dictLock (s.cache.nodes node).dict = none) :
    Places ({ s with dictLock := Function.update s.dictLock (s.cache.nodes node).dict (some m) }.setGc
      m (.inside node rest)) := by
  have ok := places.gc m
  rw [stage] at ok
  obtain ⟨mine, walks⟩ := ok
  refine places.still (.refl _) (gc_all places rfl ?_ ?_) ?_
  · exact ⟨mine, Function.update_self _ _ _, walks.once, walks.listed, walks.linked⟩
  · intro m' _
    refine GcFrame.still (.refl _) (fun lock => lock) (fun d lock => ?_) fun _ d _ waits => waits
    have differs : d ≠ (s.cache.nodes node).dict := by
      rintro rfl
      rw [unlocked] at lock
      cases lock
    exact (Function.update_of_ne differs _ _).trans lock
  · exact fun d => (places.free d).frame (FreeFrame.still (.refl _) fun lock => lock)

theorem Places.gcLeave (places : Places s) (stage : s.gc m = .leaving node rest) :
    Places ({ s with dictLock := Function.update s.dictLock (s.cache.nodes node).dict none }.setGc
      m (.walk rest)) := by
  have ok := places.gc m
  rw [stage] at ok
  obtain ⟨mine, locked, waits, walks⟩ := ok
  refine places.still (.refl _) (gc_all places rfl ?_ ?_) ?_
  · exact ⟨mine, walks.once, walks.listed, walks.linked⟩
  · intro m' other
    refine GcFrame.still (.refl _) (fun lock => lock) (fun d lock => ?_) fun _ d _ waits => waits
    have differs : d ≠ (s.cache.nodes node).dict := by
      rintro rfl
      rw [locked] at lock
      cases lock
      exact other rfl
    exact (Function.update_of_ne differs _ _).trans lock
  · exact fun d => (places.free d).frame (FreeFrame.still (.refl _) fun lock => lock)

theorem Places.gcDone (places : Places s) (empty : s.cache.kvnodes m = []) :
    Places (s.setGc m .idle) := by
  refine places.still (.refl _) (gc_all places rfl ?_ ?_) ?_
  · intro n inside
    have inside : n ∈ s.cache.kvnodes m := inside
    rw [empty] at inside
    exact absurd inside List.not_mem_nil
  · exact fun m' _ => GcFrame.still (.refl _) (fun lock => lock) (fun d lock => lock)
      fun _ d _ waits => waits
  · exact fun d => (places.free d).frame (FreeFrame.still (.refl _) fun lock => lock)

theorem linked_unlink (once : (linkedNodes c d).Nodup) (member : node ∈ linkedNodes c d) :
    n ∈ linkedNodes (kvcacheModuleUnlink c d m node) d ↔ n ∈ linkedNodes c d ∧ n ≠ node := by
  have perm := unlink_perm (m := m) member
  have outside := (List.nodup_cons.mp (perm.nodup once)).1
  rw [perm.mem_iff, List.mem_cons]
  constructor
  · intro inside
    refine ⟨.inr inside, ?_⟩
    rintro rfl
    exact outside inside
  · rintro ⟨rfl | inside, differs⟩
    · exact absurd rfl differs
    · exact inside

theorem linked_unlink_other (other : d' ≠ d) :
    linkedNodes (kvcacheModuleUnlink c d m node) d' = linkedNodes c d' := by
  unfold linkedNodes
  rw [unlink_dicts, Function.update_of_ne other]

/-- In every tree exactly the node is missing. -/
theorem Places.linked_unlink (places : Places s) (member : node ∈ linkedNodes s.cache d) :
    n ∈ linkedNodes (kvcacheModuleUnlink s.cache d 0 node) d' ↔
      n ∈ linkedNodes s.cache d' ∧ n ≠ node := by
  by_cases same : d' = d
  · rw [same]
    exact KvCacheTeardown.linked_unlink (places.tree d) member
  · rw [linked_unlink_other same]
    constructor
    · intro inside
      refine ⟨inside, ?_⟩
      rintro rfl
      exact same ((places.home d' n inside).1.symm.trans (places.home d n member).1)
    · exact And.left

/-- A step that takes a node out of its tree. -/
theorem Places.unlink (places : Places s) (member : node ∈ linkedNodes s.cache d)
    (cache : s'.cache = kvcacheModuleUnlink s.cache d 0 node)
    (gc : ∀ m, GcOk s' m (s'.gc m)) (free : ∀ d, FreeOk s' d (s'.free d)) : Places s' := by
  refine ⟨fun d' => ?_, fun d' n inside => ?_, fun d' => ?_, fun m => ?_, fun m n inside => ?_, gc, free⟩
  · rw [cache]
    by_cases same : d' = d
    · rw [same]
      exact (List.nodup_cons.mp ((unlink_perm member).nodup (places.tree d))).2
    · rw [linked_unlink_other same]
      exact places.tree d'
  · rw [cache] at inside ⊢
    rw [unlink_nodes, unlink_allocated]
    exact places.home d' n (places.linked_unlink member |>.mp inside).1
  · rw [cache]
    by_cases same : d' = d
    · have length := (unlink_perm (m := 0) member).length_eq
      rw [List.length_cons] at length
      rw [same, unlink_count, places.count d, length]
      omega
    · rw [linked_unlink_other same, unlink_dicts, Function.update_of_ne same]
      exact places.count d'
  · rw [cache]
    exact places.list m
  · rw [cache] at inside ⊢
    rw [unlink_nodes, unlink_allocated]
    exact places.owner m n inside

/-- A collection takes its node out of the tree. -/
theorem Places.gcUnlink (places : Places s) (stage : s.gc m = .inside node rest) :
    Places ({ s with cache := kvcacheModuleUnlink s.cache (s.cache.nodes node).dict 0 node }.setGc
      m (.leaving node rest)) := by
  have ok := places.gc m
  rw [stage] at ok
  obtain ⟨mine, locked, walks⟩ := ok
  have listed := walks.listed node List.mem_cons_self
  have member := (walks.linked node listed).mpr List.mem_cons_self
  obtain ⟨outside, once⟩ := List.nodup_cons.mp walks.once
  have owner := places.owner m node listed
  refine places.unlink member rfl (gc_all places rfl ⟨mine, ?_, ?_, once, ?_, ?_⟩ ?_) ?_
  · exact locked
  · -- the node is linked and listed, so the end of its dictionary has not come to the lists
    have waits : Waits (s.free (s.cache.nodes node).dict) := by
      have free := places.free (s.cache.nodes node).dict
      cases at_ : s.free (s.cache.nodes node).dict with
      | test => exact .inl rfl
      | lock => exact .inr rfl
      | delist rest' =>
        rw [at_] at free
        have held := free.1
        rw [mine] at held
        cases held
      | dismantle =>
        rw [at_] at free
        have notListed := free node member (by rw [owner.1]; exact owner.2.1)
        rw [owner.1] at notListed
        exact absurd listed notListed
      | returned =>
        rw [at_] at free
        rw [show linkedNodes s.cache (s.cache.nodes node).dict = [] from free] at member
        exact absurd member List.not_mem_nil
    exact waits
  · exact fun n inside => walks.listed n (List.mem_cons_of_mem _ inside)
  · intro n inside
    refine (places.linked_unlink member).trans ((and_congr_left' (walks.linked n inside)).trans ?_)
    exact mem_rest_iff outside
  · intro m' other
    refine ⟨fun n => rfl, fun n inside => inside, fun _ n inside => inside, fun n inside => ?_,
      fun lock => lock, fun d lock => lock, fun _ d _ waits => waits⟩
    refine (places.linked_unlink member).trans (and_iff_left ?_)
    rintro rfl
    exact other ((places.owner m' n inside).1.symm.trans owner.1)
  · intro d
    refine (places.free d).frame ⟨fun n => rfl, fun n inside =>
      ((places.linked_unlink member).mp inside).1, fun lock => ?_, fun n _ => Iff.rfl, fun lock => lock⟩
    rw [mine] at lock
    cases lock

/-- From the list of its module exactly the node is missing. -/
theorem Places.mem_del (places : Places s) (member : node ∈ s.cache.kvnodes m) :
    n ∈ (kvnodesDel s.cache m node).kvnodes m' ↔ n ∈ s.cache.kvnodes m' ∧ n ≠ node := by
  unfold kvnodesDel
  dsimp only
  by_cases same : m' = m
  · rw [same, Function.update_self, (places.list m).mem_erase_iff, and_comm]
  · rw [Function.update_of_ne same]
    constructor
    · intro inside
      refine ⟨inside, ?_⟩
      rintro rfl
      exact same ((places.owner m' n inside).1.symm.trans (places.owner m n member).1)
    · exact And.left

/-- A step that takes a node out of the list of its module. -/
theorem Places.del (places : Places s) (member : node ∈ s.cache.kvnodes m)
    (cache : s'.cache = kvnodesDel s.cache m node)
    (gc : ∀ m, GcOk s' m (s'.gc m)) (free : ∀ d, FreeOk s' d (s'.free d)) : Places s' := by
  refine ⟨?_, ?_, ?_, fun m' => ?_, fun m' n inside => ?_, gc, free⟩
  · rw [cache]
    exact places.tree
  · rw [cache]
    exact places.home
  · rw [cache]
    exact places.count
  · rw [cache]
    unfold kvnodesDel
    dsimp only
    by_cases same : m' = m
    · rw [same, Function.update_self]
      exact (places.list m).erase node
    · rw [Function.update_of_ne same]
      exact places.list m'
  · rw [cache] at inside ⊢
    exact places.owner m' n ((places.mem_del member).mp inside).1

/-- A reference is dropped. -/
theorem Places.drop (places : Places s) :
    Places { s with cache := kvcacheNodeDrop s.cache node } :=
  places.still drop_shelves
    (fun m => (places.gc m).frame (GcFrame.still drop_shelves (fun lock => lock) (fun _ lock => lock)
      fun _ _ _ waits => waits))
    fun d => (places.free d).frame (FreeFrame.still drop_shelves fun lock => lock)

/-- A collection takes the next node, which is in no tree, out of the list. -/
theorem Places.gcDel (places : Places s) (stage : s.gc m = .puts)
    (member : node ∈ s.cache.kvnodes m) :
    Places { s with cache := kvnodesDel s.cache m node } := by
  have gone := places.gc m
  rw [stage] at gone
  refine places.del member rfl (gc_all places (Function.update_eq_self m s.gc).symm ?_ ?_) ?_
  · have sub : GcOk { s with cache := kvnodesDel s.cache m node } m .puts := fun n inside =>
      gone n ((places.mem_del member).mp inside).1
    rw [stage]
    exact sub
  · intro m' other
    refine ⟨fun n => rfl, fun n inside => ((places.mem_del member).mp inside).1, fun _ n inside => ?_,
      fun n _ => Iff.rfl, fun lock => lock, fun _ lock => lock, fun _ _ _ waits => waits⟩
    refine (places.mem_del member).mpr ⟨inside, ?_⟩
    rintro rfl
    exact other ((places.owner m' n inside).1.symm.trans (places.owner m n member).1)
  · intro d
    refine (places.free d).frame ⟨fun n => rfl, fun n inside => inside, fun _ n inside => inside,
      fun n linked => (places.mem_del member).trans (and_iff_left ?_), fun lock => lock⟩
    rintro rfl
    have home := (places.home d n linked).1
    exact gone n member (by rw [home]; exact linked)

end Collection

section Ending

variable {node : Nat}

/-- The end of a dictionary without nodes, or of one whose count is not zero. -/
theorem Places.freeTest (places : Places s) (stage : s.free d = .test)
    (quiet : (s.cache.dicts d).count = 0 → s.dictLock d = none) :
    Places (s.setFree d (if (s.cache.dicts d).count = 0 then .returned else .lock)) := by
  have listed := places.free d
  rw [stage] at listed
  by_cases zero : (s.cache.dicts d).count = 0
  · rw [if_pos zero]
    have empty : linkedNodes s.cache d = [] := by
      have count := places.count d
      rw [zero] at count
      exact List.eq_nil_of_length_eq_zero (by omega)
    refine places.still (.refl _) (fun m => (places.gc m).frame (GcFrame.still (.refl _)
      (fun lock => lock) (fun _ lock => lock) fun _ d' lock waits => ?_))
      (free_all places rfl empty fun d' _ => FreeFrame.still (.refl _) fun lock => lock)
    have other : d' ≠ d := by
      rintro rfl
      rw [quiet zero] at lock
      cases lock
    exact (congrArg Waits (Function.update_of_ne other _ _)).mpr waits
  · rw [if_neg zero]
    refine places.still (.refl _) (fun m => (places.gc m).frame (GcFrame.still (.refl _)
      (fun lock => lock) (fun _ lock => lock) fun _ d' lock waits => ?_))
      (free_all places rfl listed fun d' _ => FreeFrame.still (.refl _) fun lock => lock)
    by_cases same : d' = d
    · rw [same]
      exact .inr (Function.update_self _ _ _)
    · exact (congrArg Waits (Function.update_of_ne same _ _)).mpr waits

theorem Places.freeLock (places : Places s) (stage : s.free d = .lock)
    (unlocked : s.nodesGcLock = none) :
    Places ({ s with nodesGcLock := some (.free d) }.setFree d
      (.delist (s.cache.dicts d).root.foreach)) := by
  have listed := places.free d
  rw [stage] at listed
  refine places.still (.refl _) (fun m => (places.gc m).frame (GcFrame.still (.refl _)
    (fun lock => ?_) (fun _ lock => lock) fun lock => ?_))
    (free_all places rfl ⟨rfl, places.tree d, fun n inside => inside, fun n linked hasModule => ?_⟩
      fun d' _ => FreeFrame.still (.refl _) fun lock => ?_)
  · rw [unlocked] at lock
    cases lock
  · rw [unlocked] at lock
    cases lock
  · exact ⟨fun _ => linked, fun _ => listed n linked hasModule⟩
  · rw [unlocked] at lock
    cases lock

theorem Places.freeUnlock (places : Places s) (stage : s.free d = .delist []) :
    Places ({ s with nodesGcLock := none }.setFree d .dismantle) := by
  have ok := places.free d
  rw [stage] at ok
  obtain ⟨mine, -, -, iff⟩ := ok
  refine places.still (.refl _) (fun m => (places.gc m).frame (GcFrame.still (.refl _)
    (fun lock => ?_) (fun _ lock => lock) fun lock => ?_))
    (free_all places rfl (fun n linked hasModule listed => ?_)
      fun d' other => FreeFrame.still (.refl _) fun lock => ?_)
  · rw [mine] at lock
    cases lock
  · rw [mine] at lock
    cases lock
  · exact List.not_mem_nil ((iff n linked hasModule).mp listed)
  · rw [mine] at lock
    cases lock
    exact absurd rfl other

/-- The end of a dictionary leaves a node that has no module where it is. -/
theorem Places.freeSkip (places : Places s) (stage : s.free d = .delist (node :: rest))
    (noModule : (s.cache.nodes node).module = 0) : Places (s.setFree d (.delist rest)) := by
  have ok := places.free d
  rw [stage] at ok
  obtain ⟨mine, once, inside, iff⟩ := ok
  refine places.still (.refl _) (fun m => (places.gc m).frame (GcFrame.still (.refl _)
    (fun lock => lock) (fun _ lock => lock) fun lock => ?_))
    (free_all places rfl ⟨mine, (List.nodup_cons.mp once).2, ?_, ?_⟩
      fun d' other => FreeFrame.still (.refl _) fun lock => lock)
  · rw [mine] at lock
    cases lock
  · exact fun n member => inside n (List.mem_cons_of_mem _ member)
  · intro n linked hasModule
    refine (iff n linked hasModule).trans ?_
    rw [List.mem_cons]
    refine or_iff_right ?_
    rintro rfl
    exact hasModule noModule

/-- The end of a dictionary takes a node out of the list of its module. -/
theorem Places.freeDel (places : Places s) (stage : s.free d = .delist (node :: rest))
    (hasModule : (s.cache.nodes node).module ≠ 0) :
    Places ({ s with cache := kvnodesDel s.cache (s.cache.nodes node).module node }.setFree d
      (.delist rest)) := by
  have ok := places.free d
  rw [stage] at ok
  obtain ⟨mine, once, inside, iff⟩ := ok
  obtain ⟨outside, onceRest⟩ := List.nodup_cons.mp once
  have linked := inside node List.mem_cons_self
  have member := (iff node linked hasModule).mpr List.mem_cons_self
  refine places.del member rfl (fun m => (places.gc m).frame ⟨fun n => rfl, fun n listed =>
    ((places.mem_del member).mp listed).1, fun lock => ?_, fun n _ => Iff.rfl, fun lock => lock,
    fun _ lock => lock, fun lock => ?_⟩) (free_all places rfl ⟨mine, onceRest, ?_, ?_⟩ ?_)
  · rw [mine] at lock
    cases lock
  · rw [mine] at lock
    cases lock
  · exact fun n inRest => inside n (List.mem_cons_of_mem _ inRest)
  · intro n linked hasModule
    refine (places.mem_del member).trans ((and_congr_left' (iff n linked hasModule)).trans ?_)
    exact mem_rest_iff outside
  · intro d' other
    refine ⟨fun n => rfl, fun n inside => inside, fun _ n inside => inside,
      fun n linked' => (places.mem_del member).trans (and_iff_left ?_), fun lock => lock⟩
    rintro rfl
    exact other ((places.home d' n linked').1.symm.trans (places.home d n linked).1)

/-- The end of a dictionary takes a node, which is in no list, out of the tree. -/
theorem Places.freeUnlink (places : Places s) (stage : s.free d = .dismantle)
    (member : node ∈ linkedNodes s.cache d) :
    Places { s with cache := kvcacheModuleUnlink s.cache d 0 node } := by
  have gone := places.free d
  rw [stage] at gone
  refine places.unlink member rfl (fun m => (places.gc m).frame ⟨fun n => rfl, fun n inside => inside,
    fun _ n inside => inside, fun n listed => (places.linked_unlink member).trans (and_iff_left ?_),
    fun lock => lock, fun _ lock => lock, fun _ _ _ waits => waits⟩)
    (free_all places (Function.update_eq_self d s.free).symm ?_ ?_)
  · rintro rfl
    obtain ⟨owner, hasModule, -⟩ := places.owner m n listed
    exact gone n member (by rw [owner]; exact hasModule) (by rw [owner]; exact listed)
  · have sub : FreeOk { s with cache := kvcacheModuleUnlink s.cache d 0 node } d .dismantle :=
      fun n inside => gone n ((places.linked_unlink member).mp inside).1
    rw [stage]
    exact sub
  · intro d' other
    refine ⟨fun n => rfl, fun n inside => ((places.linked_unlink member).mp inside).1,
      fun _ n inside => ?_, fun n _ => Iff.rfl, fun lock => lock⟩
    refine (places.linked_unlink member).mpr ⟨inside, ?_⟩
    rintro rfl
    exact other ((places.home d' n inside).1.symm.trans (places.home d n member).1)

theorem Places.freeDone (places : Places s) (stage : s.free d = .dismantle)
    (empty : linkedNodes s.cache d = []) : Places (s.setFree d .returned) := by
  refine places.still (.refl _) (fun m => (places.gc m).frame (GcFrame.still (.refl _)
    (fun lock => lock) (fun _ lock => lock) fun _ d' _ waits => ?_))
    (free_all places rfl empty fun d' _ => FreeFrame.still (.refl _) fun lock => lock)
  have other : d' ≠ d := by
    rintro rfl
    rw [stage] at waits
    rcases waits with waits | waits <;> cases waits
  exact (congrArg Waits (Function.update_of_ne other _ _)).mpr waits

end Ending

end Ksrc.Guarantees.KvCacheTeardown

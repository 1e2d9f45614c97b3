import Ksrc.Guarantees.KvCacheTeardown

/-!
# Teardown of modules and dictionaries frees each node once

The list of a module and the tree of a dictionary hold a node together by one reference, and the one
that is left with the node drops it. But a dictionary whose count is zero ends without a lock: a
collection may still be in the section in which it took the last node out, and then releases a lock
that is gone.
-/
namespace Ksrc.Guarantees.KvCacheFreeings
open Source Library KvCacheCalls KvCacheThreadSteps KvCacheTeardown

variable {ν : Type} {s s' : KvTeardown ν} {c : Kvcache ν} {d d' n n' : Nat} {m m' : U64}
  {rest : List Nat}

section Machine

/-- The node whose reference a step drops. -/
def dropped (s : KvTeardown ν) : TeardownAct → Option Nat
  | .gc m =>
    match s.gc m with
    | .puts => (s.cache.kvnodes m).head?
    | _ => none
  | .free d =>
    match s.free d with
    | .dismantle => (linkedNodes s.cache d).head?
    | _ => none
  | .put n => some n

/-- The dictionary that a step of a collection reads, locks or unlocks. -/
def touched (s : KvTeardown ν) : TeardownAct → Option Nat
  | .gc m =>
    match s.gc m with
    | .walk (n :: _) | .inside n _ | .leaving n _ => some (s.cache.nodes n).dict
    | _ => none
  | _ => none

/-- A run with its ledger: how often each node was freed, and each dictionary was touched after
`kvcache_dict_free` had returned. -/
structure TeardownRun (ν : Type) where
  now : KvTeardown ν
  freeings : Nat → Nat
  late : Nat → Nat

/-- The node is freed by the drop of its last reference. -/
def freedAfter (r : TeardownRun ν) (a : TeardownAct) : Nat → Nat :=
  match dropped r.now a with
  | some n => if (r.now.cache.nodes n).refcount = 1 then bump r.freeings n else r.freeings
  | none => r.freeings

def lateAfter (r : TeardownRun ν) (a : TeardownAct) : Nat → Nat :=
  match touched r.now a with
  | some d => if r.now.free d = .returned then bump r.late d else r.late
  | none => r.late

def teardownRunStep (r : TeardownRun ν) (a : TeardownAct) : Option (TeardownRun ν) :=
  (teardownStep r.now a).map fun now => ⟨now, freedAfter r a, lateAfter r a⟩

end Machine

section References

variable {r r' : TeardownRun ν} {node : Nat} {a : TeardownAct}

/-- The list or the tree has its reference to the node. -/
def Owned (c : Kvcache ν) (n : Nat) : Prop :=
  n ∈ linkedNodes c (c.nodes n).dict ∨ n ∈ c.kvnodes (c.nodes n).module

theorem owned_congr {c' : Kvcache ν} (same : SameShelves c c') : Owned c' n ↔ Owned c n := by
  unfold Owned
  rw [same.home, same.owner, same.kvnodes, linked_congr same.dicts]

/-- The references to each node, and the ledger. -/
structure Refs (r : TeardownRun ν) : Prop where
  owned : ∀ n < r.now.cache.allocated, Owned r.now.cache n →
    (r.now.cache.nodes n).refcount = r.now.held n + 1
  loose : ∀ n < r.now.cache.allocated, ¬ Owned r.now.cache n →
    (r.now.cache.nodes n).refcount = r.now.held n
  live : ∀ n < r.now.cache.allocated, (r.now.cache.nodes n).refcount ≠ 0 → r.freeings n = 0
  dead : ∀ n < r.now.cache.allocated, (r.now.cache.nodes n).refcount = 0 → r.freeings n = 1
  beyond : ∀ n, r.now.cache.allocated ≤ n → r.now.held n = 0 ∧ r.freeings n = 0
  late : ∀ d, r.late d = 0

/-- A step that drops no reference. -/
theorem Refs.same (refs : Refs r) (allocated : r'.now.cache.allocated = r.now.cache.allocated)
    (nodes : r'.now.cache.nodes = r.now.cache.nodes) (held : r'.now.held = r.now.held)
    (owned : ∀ n, Owned r'.now.cache n ↔ Owned r.now.cache n)
    (freeings : r'.freeings = r.freeings) (late : r'.late = r.late) : Refs r' := by
  constructor
  · intro n inside
    rw [allocated] at inside
    rw [owned, nodes, held]
    exact refs.owned n inside
  · intro n inside
    rw [allocated] at inside
    rw [owned, nodes, held]
    exact refs.loose n inside
  · rw [allocated, nodes, freeings]
    exact refs.live
  · rw [allocated, nodes, freeings]
    exact refs.dead
  · rw [allocated, held, freeings]
    exact refs.beyond
  · rw [late]
    exact refs.late

theorem drop_refcount : ((kvcacheNodeDrop c node).nodes node).refcount =
    (c.nodes node).refcount - 1 := by
  by_cases last : (c.nodes node).refcount = 1
  · rw [kvcacheNodeDrop_last last, setNode_self]
  · rw [kvcacheNodeDrop_held last, setNode_self]

theorem drop_nodes {c' : Kvcache ν} (same : c'.nodes = c.nodes) :
    (kvcacheNodeDrop c' node).nodes = (kvcacheNodeDrop c node).nodes := by
  by_cases last : (c.nodes node).refcount = 1
  · rw [kvcacheNodeDrop_last last, kvcacheNodeDrop_last (by rw [same]; exact last)]
    unfold Kvcache.setNode
    rw [same]
  · rw [kvcacheNodeDrop_held last, kvcacheNodeDrop_held (by rw [same]; exact last)]
    unfold Kvcache.setNode
    rw [same]

/-- A step that drops a reference to a node. -/
theorem Refs.drop (refs : Refs r) (inside : node < r.now.cache.allocated)
    (positive : 0 < (r.now.cache.nodes node).refcount)
    (allocated : r'.now.cache.allocated = r.now.cache.allocated)
    (nodes : r'.now.cache.nodes = (kvcacheNodeDrop r.now.cache node).nodes)
    (held : ∀ n ≠ node, r'.now.held n = r.now.held n)
    (others : ∀ n ≠ node, Owned r'.now.cache n ↔ Owned r.now.cache n)
    (owned : Owned r'.now.cache node → (r.now.cache.nodes node).refcount - 1 = r'.now.held node + 1)
    (loose : ¬ Owned r'.now.cache node → (r.now.cache.nodes node).refcount - 1 = r'.now.held node)
    (freeings : r'.freeings =
      if (r.now.cache.nodes node).refcount = 1 then bump r.freeings node else r.freeings)
    (late : r'.late = r.late) : Refs r' := by
  have here : (r'.now.cache.nodes node).refcount = (r.now.cache.nodes node).refcount - 1 := by
    rw [nodes, drop_refcount]
  have there : ∀ n ≠ node, (r'.now.cache.nodes n).refcount = (r.now.cache.nodes n).refcount := by
    intro n differs
    rw [nodes, drop_other differs]
  have zero := refs.live node inside (by omega)
  have freed : ∀ n ≠ node, r'.freeings n = r.freeings n := by
    intro n differs
    rw [freeings]
    split
    · exact Function.update_of_ne differs _ _
    · rfl
  have freedHere : r'.freeings node = if (r.now.cache.nodes node).refcount = 1 then 1 else 0 := by
    rw [freeings]
    split
    · unfold bump
      rw [Function.update_self, zero]
    · exact zero
  constructor
  · intro n below
    by_cases same : n = node
    · rw [same, here]
      exact owned
    · rw [there n same, held n same, others n same]
      exact refs.owned n (allocated ▸ below)
  · intro n below
    by_cases same : n = node
    · rw [same, here]
      exact loose
    · rw [there n same, held n same, others n same]
      exact refs.loose n (allocated ▸ below)
  · intro n below
    by_cases same : n = node
    · rw [same, here, freedHere]
      intro notZero
      rw [if_neg (by omega)]
    · rw [there n same, freed n same]
      exact refs.live n (allocated ▸ below)
  · intro n below
    by_cases same : n = node
    · rw [same, here, freedHere]
      intro isZero
      rw [if_pos (by omega)]
    · rw [there n same, freed n same]
      exact refs.dead n (allocated ▸ below)
  · intro n beyond
    rw [allocated] at beyond
    have differs : n ≠ node := by
      rintro rfl
      exact absurd inside (Nat.not_lt.mpr beyond)
    rw [held n differs, freed n differs]
    exact refs.beyond n beyond
  · rw [late]
    exact refs.late

/-- A collection only gets at dictionaries that have not ended. -/
theorem touched_stays (places : Places s) (touch : touched s a = some d) :
    s.free d ≠ .returned := by
  intro returned
  have empty := places.free d
  rw [returned] at empty
  have empty : linkedNodes s.cache d = [] := empty
  cases a with
  | free d' => cases touch
  | put n => cases touch
  | gc m =>
    have ok := places.gc m
    unfold touched at touch
    dsimp only at touch
    cases stage : s.gc m with
    | idle =>
      rw [stage] at touch
      cases touch
    | puts =>
      rw [stage] at touch
      cases touch
    | walk rest =>
      cases rest with
      | nil =>
        rw [stage] at touch
        cases touch
      | cons n rest =>
        rw [stage] at touch ok
        cases touch
        have linked := (ok.2.linked n (ok.2.listed n List.mem_cons_self)).mpr List.mem_cons_self
        rw [empty] at linked
        exact List.not_mem_nil linked
    | inside n rest =>
      rw [stage] at touch ok
      cases touch
      have linked := (ok.2.2.linked n (ok.2.2.listed n List.mem_cons_self)).mpr List.mem_cons_self
      rw [empty] at linked
      exact List.not_mem_nil linked
    | leaving n rest =>
      rw [stage] at touch ok
      cases touch
      rcases ok.2.2.1 with waits | waits
      · cases waits.symm.trans returned
      · cases waits.symm.trans returned

theorem late_none (places : Places r.now) : lateAfter r a = r.late := by
  unfold lateAfter
  split
  · rename_i d touch
    rw [if_neg (touched_stays places touch)]
  · rfl

theorem freedAfter_none (none_ : dropped r.now a = none) : freedAfter r a = r.freeings := by
  unfold freedAfter
  rw [none_]

theorem freedAfter_some (some_ : dropped r.now a = some node) : freedAfter r a =
    if (r.now.cache.nodes node).refcount = 1 then bump r.freeings node else r.freeings := by
  unfold freedAfter
  rw [some_]

theorem gc_noDrop (notPuts : s.gc m ≠ .puts) : dropped s (.gc m) = none := by
  unfold dropped
  dsimp only
  cases stage : s.gc m with
  | puts => exact absurd stage notPuts
  | _ => rfl

theorem free_noDrop (notDismantle : s.free d ≠ .dismantle) : dropped s (.free d) = none := by
  unfold dropped
  dsimp only
  cases stage : s.free d with
  | dismantle => exact absurd stage notDismantle
  | _ => rfl

theorem gc_dropped (stage : s.gc m = .puts) : dropped s (.gc m) = (s.cache.kvnodes m).head? := by
  unfold dropped
  dsimp only
  rw [stage]

theorem free_dropped (stage : s.free d = .dismantle) :
    dropped s (.free d) = (linkedNodes s.cache d).head? := by
  unfold dropped
  dsimp only
  rw [stage]

/-- A step of a collection. -/
theorem gc_step {now : KvTeardown ν} (places : Places r.now) (refs : Refs r)
    (stepped : kvcacheModuleNodesGc r.now m = some now) :
    Places now ∧ Refs ⟨now, freedAfter r (.gc m), lateAfter r (.gc m)⟩ := by
  have late := late_none (a := .gc m) places
  unfold kvcacheModuleNodesGc at stepped
  have noDrop : r.now.gc m ≠ .puts → freedAfter r (.gc m) = r.freeings := fun notPuts =>
    freedAfter_none (gc_noDrop notPuts)
  split at stepped
  · rename_i stage
    split at stepped
    · rename_i unlocked
      cases stepped
      exact ⟨places.gcLock stage (Option.isNone_iff_eq_none.mp unlocked),
        refs.same rfl rfl rfl (fun _ => Iff.rfl) (noDrop (by simp [stage])) late⟩
    · cases stepped
  · rename_i stage
    cases stepped
    exact ⟨places.gcUnlock stage,
      refs.same rfl rfl rfl (fun _ => Iff.rfl) (noDrop (by simp [stage])) late⟩
  · rename_i node rest stage
    dsimp only at stepped
    split at stepped
    · rename_i unlocked
      cases stepped
      exact ⟨places.gcEnter stage (Option.isNone_iff_eq_none.mp unlocked),
        refs.same rfl rfl rfl (fun _ => Iff.rfl) (noDrop (by simp [stage])) late⟩
    · cases stepped
  · rename_i node rest stage
    cases stepped
    have ok := places.gc m
    rw [stage] at ok
    have listed := ok.2.2.listed node List.mem_cons_self
    have member := (ok.2.2.linked node listed).mpr List.mem_cons_self
    refine ⟨places.gcUnlink stage, refs.same unlink_allocated unlink_nodes rfl (fun n => ?_)
      (noDrop (by simp [stage])) late⟩
    by_cases same : n = node
    · subst same
      have stays : n ∈ r.now.cache.kvnodes (r.now.cache.nodes n).module := by
        rw [(places.owner m n listed).1]
        exact listed
      exact ⟨fun _ => .inr stays, fun _ => .inr stays⟩
    · exact or_congr_left ((places.linked_unlink member).trans (and_iff_left same))
  · rename_i node rest stage
    cases stepped
    exact ⟨places.gcLeave stage,
      refs.same rfl rfl rfl (fun _ => Iff.rfl) (noDrop (by simp [stage])) late⟩
  · rename_i stage
    split at stepped
    · rename_i empty
      cases stepped
      refine ⟨places.gcDone empty, refs.same rfl rfl rfl (fun _ => Iff.rfl) (freedAfter_none ?_) late⟩
      rw [gc_dropped stage, empty]
      rfl
    · rename_i node tail list
      cases stepped
      have member : node ∈ r.now.cache.kvnodes m := by
        rw [list]
        exact List.mem_cons_self
      have gone := places.gc m
      rw [stage] at gone
      obtain ⟨owner, -, below⟩ := places.owner m node member
      have owned : Owned r.now.cache node := by
        refine .inr ?_
        rw [owner]
        exact member
      have count := refs.owned node below owned
      have isDropped : dropped r.now (.gc m) = some node := by
        rw [gc_dropped stage, list]
        rfl
      have outside : ¬ Owned (kvnodesDel r.now.cache m node) node := by
        rintro (linked | listed)
        · exact gone node member linked
        · exact ((places.mem_del member).mp listed).2 rfl
      have notOwned : ¬ Owned (kvcacheNodeDrop (kvnodesDel r.now.cache m node) node) node :=
        fun now => outside ((owned_congr drop_shelves).mp now)
      refine ⟨(places.gcDel stage member).drop, refs.drop below (by omega) drop_allocated (drop_nodes rfl)
        (fun _ _ => rfl) (fun n differs => ?_) (fun now => absurd now notOwned) (fun _ => ?_)
        (freedAfter_some isDropped) late⟩
      · refine (owned_congr drop_shelves).trans ?_
        exact or_congr_right ((places.mem_del member).trans (and_iff_left differs))
      · dsimp only
        omega

/-- A step of the end of a dictionary. -/
theorem free_step {now : KvTeardown ν} (places : Places r.now) (refs : Refs r)
    (quiet : r.now.free d = .test → (r.now.cache.dicts d).count = 0 → r.now.dictLock d = none)
    (stepped : kvcacheDictFree r.now d = some now) :
    Places now ∧ Refs ⟨now, freedAfter r (.free d), lateAfter r (.free d)⟩ := by
  have late := late_none (a := .free d) places
  unfold kvcacheDictFree at stepped
  have noDrop : r.now.free d ≠ .dismantle → freedAfter r (.free d) = r.freeings :=
    fun notDismantle => freedAfter_none (free_noDrop notDismantle)
  split at stepped
  · rename_i stage
    cases stepped
    exact ⟨places.freeTest stage (quiet stage),
      refs.same rfl rfl rfl (fun _ => Iff.rfl) (noDrop (by simp [stage])) late⟩
  · rename_i stage
    split at stepped
    · rename_i unlocked
      cases stepped
      exact ⟨places.freeLock stage (Option.isNone_iff_eq_none.mp unlocked),
        refs.same rfl rfl rfl (fun _ => Iff.rfl) (noDrop (by simp [stage])) late⟩
    · cases stepped
  · rename_i stage
    cases stepped
    exact ⟨places.freeUnlock stage,
      refs.same rfl rfl rfl (fun _ => Iff.rfl) (noDrop (by simp [stage])) late⟩
  · rename_i node rest stage
    cases stepped
    by_cases noModule : (r.now.cache.nodes node).module = 0
    · rw [if_pos noModule]
      exact ⟨places.freeSkip stage noModule,
        refs.same rfl rfl rfl (fun _ => Iff.rfl) (noDrop (by simp [stage])) late⟩
    · rw [if_neg noModule]
      have ok := places.free d
      rw [stage] at ok
      obtain ⟨-, -, inside, iff⟩ := ok
      have linked := inside node List.mem_cons_self
      have member := (iff node linked noModule).mpr List.mem_cons_self
      refine ⟨places.freeDel stage noModule, refs.same rfl rfl rfl (fun n => ?_)
        (noDrop (by simp [stage])) late⟩
      by_cases same : n = node
      · subst same
        have stays : n ∈ linkedNodes r.now.cache (r.now.cache.nodes n).dict := by
          rw [(places.home d n linked).1]
          exact linked
        exact ⟨fun _ => .inl stays, fun _ => .inl stays⟩
      · exact or_congr_right ((places.mem_del member).trans (and_iff_left same))
  · rename_i stage
    split at stepped
    · rename_i empty
      cases stepped
      refine ⟨places.freeDone stage empty,
        refs.same rfl rfl rfl (fun _ => Iff.rfl) (freedAfter_none ?_) late⟩
      rw [free_dropped stage, linkedNodes, empty]
      rfl
    · rename_i node tail tree
      cases stepped
      have member : node ∈ linkedNodes r.now.cache d := by
        unfold linkedNodes
        rw [tree]
        exact List.mem_cons_self
      have gone := places.free d
      rw [stage] at gone
      obtain ⟨home, below⟩ := places.home d node member
      have owned : Owned r.now.cache node := by
        refine .inl ?_
        rw [home]
        exact member
      have count := refs.owned node below owned
      have isDropped : dropped r.now (.free d) = some node := by
        rw [free_dropped stage, linkedNodes, tree]
        rfl
      have outside : ¬ Owned (kvcacheModuleUnlink r.now.cache d 0 node) node := by
        rintro (linked | listed)
        · exact ((places.linked_unlink member).mp linked).2 rfl
        · obtain ⟨-, hasModule, -⟩ := places.owner _ node listed
          exact gone node member hasModule listed
      have notOwned : ¬ Owned (kvcacheNodeDrop (kvcacheModuleUnlink r.now.cache d 0 node) node) node :=
        fun now => outside ((owned_congr drop_shelves).mp now)
      refine ⟨(places.freeUnlink stage member).drop,
        refs.drop below (by omega) (drop_allocated.trans unlink_allocated)
        (drop_nodes unlink_nodes) (fun _ _ => rfl)
        (fun n differs => ?_) (fun now => absurd now notOwned) (fun _ => ?_)
        (freedAfter_some isDropped) late⟩
      · refine (owned_congr drop_shelves).trans ?_
        exact or_congr_left ((places.linked_unlink member).trans (and_iff_left differs))
      · dsimp only
        omega
  · cases stepped

/-- A thread puts its reference. -/
theorem put_step {now : KvTeardown ν} (places : Places r.now) (refs : Refs r)
    (stepped : putHeld r.now node = some now) :
    Places now ∧ Refs ⟨now, freedAfter r (.put node), lateAfter r (.put node)⟩ := by
  unfold putHeld at stepped
  split at stepped
  · cases stepped
  rename_i held
  cases stepped
  have below : node < r.now.cache.allocated := by
    by_contra beyond
    exact held (refs.beyond node (Nat.not_lt.mp beyond)).1
  have same : ∀ n, Owned (kvcacheNodeDrop r.now.cache node) n ↔ Owned r.now.cache n :=
    fun n => owned_congr drop_shelves
  have now : Function.update r.now.held node (r.now.held node - 1) node = r.now.held node - 1 :=
    Function.update_self _ _ _
  have positive : 0 < (r.now.cache.nodes node).refcount := by
    by_cases owned : Owned r.now.cache node
    · have count := refs.owned node below owned
      omega
    · have count := refs.loose node below owned
      omega
  refine ⟨?_, refs.drop below positive drop_allocated rfl
    (fun n differs => Function.update_of_ne differs _ _) (fun n _ => same n) (fun owned => ?_)
    (fun loose => ?_) rfl (late_none (r := r) (a := .put node) places)⟩
  · exact places.still drop_shelves
      (fun m => (places.gc m).frame (GcFrame.still drop_shelves (fun lock => lock)
        (fun _ lock => lock) fun _ _ _ waits => waits))
      fun d => (places.free d).frame (FreeFrame.still drop_shelves fun lock => lock)
  · have count := refs.owned node below ((same node).mp owned)
    dsimp only
    omega
  · have count := refs.loose node below fun owned => loose ((same node).mpr owned)
    dsimp only
    omega

end References

section Runs

variable {r r' : TeardownRun ν} {a : TeardownAct}

/-- No teardown has begun, and each node in a tree is in the list of its module. -/
structure Standing (r : TeardownRun ν) : Prop where
  gc : ∀ m, r.now.gc m = .idle
  free : ∀ d, r.now.free d = .test
  tree : ∀ d, (linkedNodes r.now.cache d).Nodup
  home : ∀ d, ∀ n ∈ linkedNodes r.now.cache d,
    (r.now.cache.nodes n).dict = d ∧ n < r.now.cache.allocated
  count : ∀ d, (r.now.cache.dicts d).count = (linkedNodes r.now.cache d).length
  list : ∀ m, (r.now.cache.kvnodes m).Nodup
  listed : ∀ m n, n ∈ r.now.cache.kvnodes m ↔
    m ≠ 0 ∧ (r.now.cache.nodes n).module = m ∧ ∃ d, n ∈ linkedNodes r.now.cache d
  refs : Refs r

/-- Threads take modules and dictionaries down and put what they hold, in any order. -/
def teardowns : Machine (TeardownRun ν) TeardownAct where
  start := Standing
  step := teardownRunStep

/-- `kvcache_dict_free` does not find the count zero while the lock of the dictionary is held. -/
def Quiet (r : TeardownRun ν) : TeardownAct → Prop
  | .free d => r.now.free d = .test → (r.now.cache.dicts d).count = 0 → r.now.dictLock d = none
  | _ => True

/-- Each node is freed once, when neither a tree nor a list nor a thread has a reference to it, and no
collection touches a dictionary that has ended. -/
structure SafeTeardown (r : TeardownRun ν) : Prop where
  freedOnce : ∀ n, r.freeings n ≤ 1
  freed : ∀ n < r.now.cache.allocated, r.freeings n = 1 ↔ r.now.held n = 0 ∧
    (∀ d, n ∉ linkedNodes r.now.cache d) ∧ ∀ m, n ∉ r.now.cache.kvnodes m
  ended : ∀ d, r.now.free d = .returned → linkedNodes r.now.cache d = []
  late : ∀ d, r.late d = 0

theorem Standing.places (standing : Standing r) : Places r.now := by
  refine ⟨standing.tree, standing.home, standing.count, standing.list, ?_, fun m => ?_, fun d => ?_⟩
  · intro m n inside
    obtain ⟨hasModule, owner, d, linked⟩ := (standing.listed m n).mp inside
    exact ⟨owner, hasModule, (standing.home d n linked).2⟩
  · rw [standing.gc]
    intro n inside
    obtain ⟨-, -, d, linked⟩ := (standing.listed m n).mp inside
    rw [(standing.home d n linked).1]
    exact linked
  · rw [standing.free]
    exact fun n linked hasModule => (standing.listed _ n).mpr ⟨hasModule, rfl, d, linked⟩

theorem teardown_step (places : Places r.now) (refs : Refs r) (quiet : Quiet r a)
    (stepped : teardownRunStep r a = some r') : Places r'.now ∧ Refs r' := by
  unfold teardownRunStep at stepped
  obtain ⟨now, moved, rfl⟩ := Option.map_eq_some_iff.mp stepped
  cases a with
  | gc m => exact gc_step places refs moved
  | free d => exact free_step places refs quiet moved
  | put n => exact put_step places refs moved

theorem safe_teardown (places : Places r.now) (refs : Refs r) : SafeTeardown r := by
  have owned_iff : ∀ n, Owned r.now.cache n ↔
      ¬ ((∀ d, n ∉ linkedNodes r.now.cache d) ∧ ∀ m, n ∉ r.now.cache.kvnodes m) := by
    intro n
    constructor
    · rintro (linked | listed) ⟨noTree, noList⟩
      · exact noTree _ linked
      · exact noList _ listed
    · intro some_
      by_contra notOwned
      refine some_ ⟨fun d linked => notOwned (.inl ?_), fun m listed => notOwned (.inr ?_)⟩
      · rw [(places.home d n linked).1]
        exact linked
      · rw [(places.owner m n listed).1]
        exact listed
  refine ⟨fun n => ?_, fun n below => ?_, fun d returned => ?_, refs.late⟩
  · by_cases below : n < r.now.cache.allocated
    · by_cases zero : (r.now.cache.nodes n).refcount = 0
      · rw [refs.dead n below zero]
      · rw [refs.live n below zero]
        exact Nat.zero_le 1
    · rw [(refs.beyond n (Nat.not_lt.mp below)).2]
      exact Nat.zero_le 1
  · constructor
    · intro freed
      have zero : (r.now.cache.nodes n).refcount = 0 := by
        by_contra notZero
        rw [refs.live n below notZero] at freed
        cases freed
      by_cases owned : Owned r.now.cache n
      · have count := refs.owned n below owned
        omega
      · have count := refs.loose n below owned
        exact ⟨by omega, not_not.mp fun some_ => owned ((owned_iff n).mpr some_)⟩
    · rintro ⟨notHeld, nowhere⟩
      have loose := refs.loose n below fun owned => (owned_iff n).mp owned nowhere
      exact refs.dead n below (by omega)
  · have ok := places.free d
    rw [returned] at ok
    exact ok

/-- In every run that meets the condition nodes are freed once and dictionaries are let alone when
they have ended. -/
theorem teardown_safe (reached : teardowns.Reachable Quiet r) : SafeTeardown r := by
  have ordered : Places r.now ∧ Refs r :=
    show (fun r : TeardownRun ν => Places r.now ∧ Refs r) r from
      reached.invariant (fun _ standing => ⟨Standing.places standing, Standing.refs standing⟩)
        fun _ _ _ before quiet stepped => teardown_step before.1 before.2 quiet stepped
  exact safe_teardown ordered.1 ordered.2

/-- Where the condition is not met, the collection releases a lock that is gone. -/
theorem late_unlock {node : Nat} (stage : r.now.gc m = .leaving node rest)
    (test : r.now.free (r.now.cache.nodes node).dict = .test)
    (zero : (r.now.cache.dicts (r.now.cache.nodes node).dict).count = 0) :
    ∃ r', teardowns.exec r [.free (r.now.cache.nodes node).dict, .gc m] = some r' ∧
      r'.late (r.now.cache.nodes node).dict = r.late (r.now.cache.nodes node).dict + 1 := by
  have first : teardownRunStep r (.free (r.now.cache.nodes node).dict) =
      some ⟨r.now.setFree (r.now.cache.nodes node).dict .returned,
        freedAfter r (.free (r.now.cache.nodes node).dict), r.late⟩ := by
    simp only [teardownRunStep, teardownStep, kvcacheDictFree, test, zero, if_true, Option.map_some]
    rfl
  have second : ∃ r', teardownRunStep ⟨r.now.setFree (r.now.cache.nodes node).dict .returned,
      freedAfter r (.free (r.now.cache.nodes node).dict), r.late⟩ (.gc m) = some r' ∧
      r'.late = bump r.late (r.now.cache.nodes node).dict := by
    simp only [teardownRunStep, teardownStep, kvcacheModuleNodesGc, KvTeardown.setFree, stage,
      Option.map_some, Option.some.injEq, exists_eq_left', lateAfter, touched, Function.update_self,
      if_true]
  obtain ⟨r', second, late⟩ := second
  refine ⟨r', ?_, ?_⟩
  · simp only [Machine.exec, teardowns, first, second, Option.bind_some]
  · rw [late]
    exact Function.update_self _ _ _

end Runs

section Example

/-- A module and a dictionary with one node. -/
def oneNode : TeardownRun Int where
  now :=
    { cache :=
        { dicts := fun d => if d = 0 then ⟨cacheCapacity, 1, .node false false .nil 0 .nil⟩
            else kvcacheDictInit
          nodes := fun _ => ⟨[107], 1, 0, 1, .number 5, false⟩
          allocated := 1
          kvnodes := fun m => if m = 1 then [0] else []
          kvnodesCount := fun m => if m = 1 then 1 else 0 }
      nodesGcLock := none
      dictLock := fun _ => none
      gc := fun _ => .idle
      free := fun _ => .test
      held := fun _ => 0 }
  freeings := fun _ => 0
  late := fun _ => 0

theorem oneNode_linked {d n : Nat} : n ∈ linkedNodes oneNode.now.cache d ↔ d = 0 ∧ n = 0 := by
  unfold linkedNodes oneNode
  dsimp only
  split
  · rename_i zero
    simp [zero]
  · rename_i other
    simp [other, kvcacheDictInit]

theorem oneNode_listed {m : U64} {n : Nat} : n ∈ oneNode.now.cache.kvnodes m ↔ m = 1 ∧ n = 0 := by
  unfold oneNode
  dsimp only
  split
  · rename_i one
    simp [one]
  · rename_i other
    exact ⟨fun inside => absurd inside List.not_mem_nil, fun both => absurd both.1 other⟩

theorem oneNode_standing : Standing oneNode := by
  have ownedZero : ∀ n < 1, Owned oneNode.now.cache n := by
    intro n below
    exact .inl (oneNode_linked.mpr ⟨rfl, Nat.lt_one_iff.mp below⟩)
  refine ⟨fun _ => rfl, fun _ => rfl, fun d => ?_, fun d n linked => ?_, fun d => ?_, fun m => ?_,
    fun m n => ?_, ⟨fun _ _ _ => rfl, fun n below notOwned => absurd (ownedZero n below) notOwned,
      fun _ _ _ => rfl, fun _ _ zero => ?_, fun _ _ => ⟨rfl, rfl⟩, fun _ => rfl⟩⟩
  · unfold linkedNodes oneNode
    dsimp only
    split <;> simp [kvcacheDictInit]
  · obtain ⟨rfl, rfl⟩ := oneNode_linked.mp linked
    exact ⟨rfl, Nat.zero_lt_one⟩
  · unfold linkedNodes oneNode
    dsimp only
    split <;> simp [kvcacheDictInit]
  · unfold oneNode
    dsimp only
    split <;> simp
  · rw [oneNode_listed]
    constructor
    · rintro ⟨rfl, rfl⟩
      exact ⟨by decide, rfl, 0, oneNode_linked.mpr ⟨rfl, rfl⟩⟩
    · rintro ⟨-, rfl, d, linked⟩
      exact ⟨rfl, (oneNode_linked.mp linked).2⟩
  · cases zero

def unlockedTest (r : TeardownRun Int) : TeardownAct → Bool
  | .free d => (r.now.dictLock d).isNone
  | _ => true

theorem unlockedTest_quiet (r : TeardownRun Int) (a : TeardownAct) (passes : unlockedTest r a = true) :
    Quiet r a := by
  cases a with
  | free d => exact fun _ _ => Option.isNone_iff_eq_none.mp passes
  | gc m => trivial
  | put n => trivial

/-- The module is collected, then the dictionary ends. -/
def bothGone : TeardownRun Int :=
  (teardowns.execTested unlockedTest oneNode (List.replicate 7 (.gc 1) ++ [.free 0])).getD oneNode

theorem teardown_safe_both : bothGone.freeings 0 = 1 ∧ bothGone.now.free 0 = .returned ∧
    SafeTeardown bothGone := by
  have ran : teardowns.execTested unlockedTest oneNode
      (List.replicate 7 (.gc 1) ++ [.free 0]) = some bothGone := rfl
  exact ⟨rfl, rfl, teardown_safe
    ⟨oneNode, oneNode_standing, Machine.execTested_reaches unlockedTest_quiet ran⟩⟩

/-- The dictionary ends while the collection holds its lock. -/
def unlockGone : TeardownRun Int :=
  (teardowns.exec oneNode [.gc 1, .gc 1, .gc 1, .free 0, .gc 1]).getD oneNode

theorem teardown_unsafe : ¬ ∀ r : TeardownRun Int,
    teardowns.Reachable Machine.free r → SafeTeardown r := by
  intro safe
  have ran : teardowns.exec oneNode [.gc 1, .gc 1, .gc 1, .free 0, .gc 1] = some unlockGone := rfl
  have late := (safe unlockGone ⟨oneNode, oneNode_standing, Machine.exec_reaches ran⟩).late 0
  have touchedLate : unlockGone.late 0 = 1 := by decide
  omega

end Example

end Ksrc.Guarantees.KvCacheFreeings

import Ksrc.Guarantees.KvCacheThreadSteps

/-!
# Each node of the key/value cache is taken out once

A set to `nil` looks its node up and takes it out under the lock of the dictionary, but the lock
is released in between: two of them that have found one node both take it out. As long as no set to
`nil` looks a key up while another one is between these two sections for a key that compares equal,
the count is the number of the linked nodes, and of each node the tree's reference is dropped once.
-/
namespace Ksrc.Guarantees.KvCacheUnlinks
open Source Library KvCacheCalls KvCacheOrder KvCacheThreadSteps RbTreeElements

section Ledger

variable {linked linked' : List Nat} {count : Int} {allocated n t : Nat}
  {removals treeDrops : Nat → Nat} {roles : Nat → Role} {role : Role}

/-- The nodes of a dictionary, the ledger of their removals, and what the threads are about to do. -/
structure Ledger (linked : List Nat) (count : Int) (allocated : Nat) (removals treeDrops : Nat → Nat)
    (roles : Nat → Role) : Prop where
  below : ∀ n ∈ linked, n < allocated
  once : linked.Nodup
  counted : count = linked.length
  unused : ∀ n, allocated ≤ n → removals n = 0
  present : ∀ n ∈ linked, removals n = 0
  atMostOnce : ∀ n, removals n ≤ 1
  linker : ∀ t n, roles t = .linker n → n < allocated ∧ n ∉ linked ∧ removals n = 0 ∧
    ∀ t', roles t' = .linker n → t' = t
  deleter : ∀ t n, roles t = .deleter n → n ∈ linked ∧ ∀ t', roles t' = .deleter n → t' = t
  dropper : ∀ t n, roles t = .dropper n → removals n = 1 ∧ treeDrops n = 0 ∧
    ∀ t', roles t' = .dropper n → t' = t
  settled : ∀ n, (∀ t, roles t ≠ .dropper n) → treeDrops n = removals n

theorem role_kept {role' : Role} {t' : Nat} (apart : role' ≠ role)
    (now : Function.update roles t role t' = role') : roles t' = role' := by
  by_cases here : t' = t
  · rw [here, Function.update_self] at now
    exact absurd now.symm apart
  · rwa [Function.update_of_ne here] at now

theorem role_lost {role' : Role} {t' : Nat} (was : roles t ≠ role') (had : roles t' = role') :
    Function.update roles t role t' = role' := by
  have differs : t' ≠ t := fun here => was (here ▸ had)
  rwa [Function.update_of_ne differs]

/-- A thread gives up what it was about to do with a node that is not linked. -/
theorem Ledger.idles (ledger : Ledger linked count allocated removals treeDrops roles)
    (was : roles t = .other ∨ ∃ n, roles t = .linker n) :
    Ledger linked count allocated removals treeDrops (Function.update roles t .other) := by
  refine { ledger with linker := ?_, deleter := ?_, dropper := ?_, settled := ?_ }
  · intro t₁ n now
    obtain ⟨inside, outside, zero, unique⟩ := ledger.linker t₁ n (role_kept (by simp) now)
    exact ⟨inside, outside, zero, fun t₂ now' => unique t₂ (role_kept (by simp) now')⟩
  · intro t₁ n now
    obtain ⟨member, unique⟩ := ledger.deleter t₁ n (role_kept (by simp) now)
    exact ⟨member, fun t₂ now' => unique t₂ (role_kept (by simp) now')⟩
  · intro t₁ n now
    obtain ⟨one, zero, unique⟩ := ledger.dropper t₁ n (role_kept (by simp) now)
    exact ⟨one, zero, fun t₂ now' => unique t₂ (role_kept (by simp) now')⟩
  · intro n none
    refine ledger.settled n fun t₁ now => none t₁ (role_lost ?_ now)
    rcases was with was | ⟨n', was⟩ <;> simp [was]

/-- A thread finds a linked node that no other thread is about to take out. -/
theorem Ledger.finds (ledger : Ledger linked count allocated removals treeDrops roles)
    (was : roles t = .other) (member : n ∈ linked) (alone : ∀ t', roles t' ≠ .deleter n) :
    Ledger linked count allocated removals treeDrops (Function.update roles t (.deleter n)) := by
  refine { ledger with linker := ?_, deleter := ?_, dropper := ?_, settled := ?_ }
  · intro t₁ n₁ now
    obtain ⟨inside, outside, zero, unique⟩ := ledger.linker t₁ n₁ (role_kept (by simp) now)
    exact ⟨inside, outside, zero, fun t₂ now' => unique t₂ (role_kept (by simp) now')⟩
  · intro t₁ n₁ now
    by_cases same : n₁ = n
    · subst same
      have isIt : ∀ t₂, Function.update roles t (Role.deleter n₁) t₂ = .deleter n₁ → t₂ = t := by
        intro t₂ now'
        by_contra differs
        rw [Function.update_of_ne differs] at now'
        exact alone t₂ now'
      rw [isIt t₁ now]
      exact ⟨member, isIt⟩
    · have apart : Role.deleter n₁ ≠ .deleter n := by simp [same]
      obtain ⟨inside, unique⟩ := ledger.deleter t₁ n₁ (role_kept apart now)
      exact ⟨inside, fun t₂ now' => unique t₂ (role_kept apart now')⟩
  · intro t₁ n₁ now
    obtain ⟨one, zero, unique⟩ := ledger.dropper t₁ n₁ (role_kept (by simp) now)
    exact ⟨one, zero, fun t₂ now' => unique t₂ (role_kept (by simp) now')⟩
  · intro n₁ none
    refine ledger.settled n₁ fun t₁ now => none t₁ (role_lost ?_ now)
    simp [was]

/-- A thread is given a new node. -/
theorem Ledger.allocates (ledger : Ledger linked count allocated removals treeDrops roles)
    (was : roles t = .other) (gives : role = .other ∨ role = .linker allocated) :
    Ledger linked count (allocated + 1) removals treeDrops (Function.update roles t role) := by
  have notDeleter : ∀ n, Role.deleter n ≠ role := by
    rcases gives with rfl | rfl <;> simp
  have notDropper : ∀ n, Role.dropper n ≠ role := by
    rcases gives with rfl | rfl <;> simp
  refine { ledger with
    below := fun n member => Nat.lt_succ_of_lt (ledger.below n member)
    unused := fun n outside => ledger.unused n (Nat.le_of_succ_le outside)
    linker := ?_, deleter := ?_, dropper := ?_, settled := ?_ }
  · intro t₁ n₁ now
    by_cases same : n₁ = allocated
    · subst same
      have isIt : ∀ t₂, Function.update roles t role t₂ = .linker n₁ → t₂ = t := by
        intro t₂ now'
        by_contra differs
        rw [Function.update_of_ne differs] at now'
        exact Nat.lt_irrefl _ (ledger.linker t₂ n₁ now').1
      rw [isIt t₁ now]
      exact ⟨Nat.lt_succ_self _, fun member => Nat.lt_irrefl _ (ledger.below _ member),
        ledger.unused _ (Nat.le_refl _), isIt⟩
    · have apart : Role.linker n₁ ≠ role := by
        rcases gives with rfl | rfl <;> simp [same]
      obtain ⟨inside, outside, zero, unique⟩ := ledger.linker t₁ n₁ (role_kept apart now)
      exact ⟨Nat.lt_succ_of_lt inside, outside, zero, fun t₂ now' => unique t₂ (role_kept apart now')⟩
  · intro t₁ n₁ now
    obtain ⟨inside, unique⟩ := ledger.deleter t₁ n₁ (role_kept (notDeleter n₁) now)
    exact ⟨inside, fun t₂ now' => unique t₂ (role_kept (notDeleter n₁) now')⟩
  · intro t₁ n₁ now
    obtain ⟨one, zero, unique⟩ := ledger.dropper t₁ n₁ (role_kept (notDropper n₁) now)
    exact ⟨one, zero, fun t₂ now' => unique t₂ (role_kept (notDropper n₁) now')⟩
  · intro n₁ none
    refine ledger.settled n₁ fun t₁ now => none t₁ (role_lost ?_ now)
    simp [was]

/-- A thread links its node. -/
theorem Ledger.links (ledger : Ledger linked count allocated removals treeDrops roles)
    (was : roles t = .linker n) (perm : linked'.Perm (n :: linked)) :
    Ledger linked' (count + 1) allocated removals treeDrops (Function.update roles t .other) := by
  obtain ⟨inside, outside, zero, alone⟩ := ledger.linker t n was
  have members : ∀ n', n' ∈ linked' ↔ n' = n ∨ n' ∈ linked := by
    intro n'
    rw [perm.mem_iff, List.mem_cons]
  refine { ledger.idles (.inr ⟨n, was⟩) with
    below := ?_, once := ?_, counted := ?_, present := ?_, linker := ?_, deleter := ?_ }
  · intro n' member
    rcases (members n').mp member with rfl | member
    · exact inside
    · exact ledger.below n' member
  · exact perm.symm.nodup (List.nodup_cons.mpr ⟨outside, ledger.once⟩)
  · rw [perm.length_eq, List.length_cons, ledger.counted]
    rfl
  · intro n' member
    rcases (members n').mp member with rfl | member
    · exact zero
    · exact ledger.present n' member
  · intro t₁ n₁ now
    have had := role_kept (by simp) now
    obtain ⟨inside₁, outside₁, zero₁, unique₁⟩ := ledger.linker t₁ n₁ had
    have differs : n₁ ≠ n := by
      rintro rfl
      rw [alone t₁ had, Function.update_self] at now
      cases now
    refine ⟨inside₁, ?_, zero₁, fun t₂ now' => unique₁ t₂ (role_kept (by simp) now')⟩
    rw [members, not_or]
    exact ⟨differs, outside₁⟩
  · intro t₁ n₁ now
    obtain ⟨member, unique⟩ := ledger.deleter t₁ n₁ (role_kept (by simp) now)
    exact ⟨(members n₁).mpr (.inr member), fun t₂ now' => unique t₂ (role_kept (by simp) now')⟩

/-- A thread takes out the node that it has found. -/
theorem Ledger.unlinks (ledger : Ledger linked count allocated removals treeDrops roles)
    (was : roles t = .deleter n) (perm : linked.Perm (n :: linked')) :
    Ledger linked' (count - 1) allocated (bump removals n) treeDrops
      (Function.update roles t (.dropper n)) := by
  obtain ⟨member, alone⟩ := ledger.deleter t n was
  have zero := ledger.present n member
  have nodup := List.nodup_cons.mp (perm.nodup ledger.once)
  have sub : ∀ n' ∈ linked', n' ∈ linked := fun n' inside =>
    perm.symm.subset (List.mem_cons_of_mem n inside)
  have now_one : bump removals n n = 1 := by
    unfold bump
    rw [Function.update_self, zero]
  have others : ∀ n', n' ≠ n → bump removals n n' = removals n' := fun n' differs =>
    Function.update_of_ne differs _ _
  have notDropped : ∀ t', roles t' ≠ .dropper n := by
    intro t' had
    have one := (ledger.dropper t' n had).1
    omega
  refine { ledger with
    below := fun n' inside => ledger.below n' (sub n' inside)
    once := nodup.2
    counted := ?_, unused := ?_, present := ?_, atMostOnce := ?_, linker := ?_, deleter := ?_
    dropper := ?_, settled := ?_ }
  · rw [ledger.counted, perm.length_eq, List.length_cons]
    omega
  · intro n' outside
    have differs : n' ≠ n := by
      rintro rfl
      exact absurd (ledger.below n' member) (Nat.not_lt.mpr outside)
    rw [others n' differs]
    exact ledger.unused n' outside
  · intro n' inside
    have differs : n' ≠ n := by
      rintro rfl
      exact nodup.1 inside
    rw [others n' differs]
    exact ledger.present n' (sub n' inside)
  · intro n'
    by_cases differs : n' = n
    · rw [differs, now_one]
    · rw [others n' differs]
      exact ledger.atMostOnce n'
  · intro t₁ n₁ now
    obtain ⟨inside, outside, zero₁, unique⟩ := ledger.linker t₁ n₁ (role_kept (by simp) now)
    have differs : n₁ ≠ n := by
      rintro rfl
      exact outside member
    rw [others n₁ differs]
    exact ⟨inside, fun inside' => outside (sub n₁ inside'), zero₁, fun t₂ now' =>
      unique t₂ (role_kept (by simp) now')⟩
  · intro t₁ n₁ now
    have had := role_kept (by simp) now
    obtain ⟨inside, unique⟩ := ledger.deleter t₁ n₁ had
    have differs : n₁ ≠ n := by
      rintro rfl
      rw [alone t₁ had, Function.update_self] at now
      cases now
    refine ⟨?_, fun t₂ now' => unique t₂ (role_kept (by simp) now')⟩
    rcases List.mem_cons.mp (perm.subset inside) with same | inside
    · exact absurd same differs
    · exact inside
  · intro t₁ n₁ now
    by_cases same : n₁ = n
    · subst same
      have isIt : ∀ t₂, Function.update roles t (Role.dropper n₁) t₂ = .dropper n₁ → t₂ = t := by
        intro t₂ now'
        by_contra differs
        rw [Function.update_of_ne differs] at now'
        exact notDropped t₂ now'
      rw [isIt t₁ now]
      refine ⟨now_one, ?_, isIt⟩
      rw [ledger.settled n₁ notDropped, zero]
    · have apart : Role.dropper n₁ ≠ .dropper n := by simp [same]
      obtain ⟨one, zero₁, unique⟩ := ledger.dropper t₁ n₁ (role_kept apart now)
      rw [others n₁ same]
      exact ⟨one, zero₁, fun t₂ now' => unique t₂ (role_kept apart now')⟩
  · intro n₁ none
    have differs : n₁ ≠ n := by
      rintro rfl
      exact none t (Function.update_self _ _ _)
    rw [others n₁ differs]
    refine ledger.settled n₁ fun t₁ now => none t₁ (role_lost ?_ now)
    simp [was]

/-- A thread drops the reference of the tree. -/
theorem Ledger.drops (ledger : Ledger linked count allocated removals treeDrops roles)
    (was : roles t = .dropper n) :
    Ledger linked count allocated removals (bump treeDrops n) (Function.update roles t .other) := by
  obtain ⟨one, zero, alone⟩ := ledger.dropper t n was
  have now_one : bump treeDrops n n = 1 := by
    unfold bump
    rw [Function.update_self, zero]
  have others : ∀ n', n' ≠ n → bump treeDrops n n' = treeDrops n' := fun n' differs =>
    Function.update_of_ne differs _ _
  refine { ledger with linker := ?_, deleter := ?_, dropper := ?_, settled := ?_ }
  · intro t₁ n₁ now
    obtain ⟨inside, outside, zero, unique⟩ := ledger.linker t₁ n₁ (role_kept (by simp) now)
    exact ⟨inside, outside, zero, fun t₂ now' => unique t₂ (role_kept (by simp) now')⟩
  · intro t₁ n₁ now
    obtain ⟨member, unique⟩ := ledger.deleter t₁ n₁ (role_kept (by simp) now)
    exact ⟨member, fun t₂ now' => unique t₂ (role_kept (by simp) now')⟩
  · intro t₁ n₁ now
    have had := role_kept (by simp) now
    obtain ⟨one₁, zero₁, unique₁⟩ := ledger.dropper t₁ n₁ had
    have differs : n₁ ≠ n := by
      rintro rfl
      rw [alone t₁ had, Function.update_self] at now
      cases now
    rw [others n₁ differs]
    exact ⟨one₁, zero₁, fun t₂ now' => unique₁ t₂ (role_kept (by simp) now')⟩
  · intro n₁ none
    by_cases same : n₁ = n
    · rw [same, now_one, one]
    · rw [others n₁ same]
      refine ledger.settled n₁ fun t₁ now => none t₁ (role_lost ?_ now)
      simp [was, Ne.symm same]

end Ledger

section Runs

variable {ν : Type} {r r' : KvcacheRun ν} {d t : Nat} {a : KvcacheAct ν}

theorem role_some {thread : KvcacheThread ν} (here : r.thread t = some thread) :
    r.role t = stageRole thread.stage := by
  unfold KvcacheRun.role
  rw [here]

theorem stageRole_deleter {stage : KvcacheStage ν} {n : Nat} (role : stageRole stage = .deleter n) :
    stage = .unlink n := by
  cases stage <;> cases role
  rfl

theorem stageRole_dropper {stage : KvcacheStage ν} {n : Nat} (role : stageRole stage = .dropper n) :
    stage = .dropTree n := by
  cases stage <;> cases role
  rfl

/-- A thread that is about to do something is in flight. -/
theorem role_thread {role : Role} (now : r.role t = role) (about : role ≠ .other) :
    ∃ thread, r.thread t = some thread ∧ stageRole thread.stage = role := by
  cases here : r.thread t with
  | none =>
    unfold KvcacheRun.role at now
    rw [here] at now
    exact absurd now.symm about
  | some thread => exact ⟨thread, rfl, (role_some here).symm.trans now⟩

theorem role_deleter {n : Nat} (role : r.role t = .deleter n) :
    ∃ thread, r.thread t = some thread ∧ thread.stage = .unlink n := by
  obtain ⟨thread, here, stage⟩ := role_thread role (by simp)
  exact ⟨thread, here, stageRole_deleter stage⟩

theorem role_dropper {n : Nat} (role : r.role t = .dropper n) :
    ∃ thread, r.thread t = some thread ∧ thread.stage = .dropTree n := by
  obtain ⟨thread, here, stage⟩ := role_thread role (by simp)
  exact ⟨thread, here, stageRole_dropper stage⟩

/-- No set to `nil` looks up a node that another one has looked up and not yet taken out. -/
def Sequenced (d : Nat) (r : KvcacheRun ν) : KvcacheAct ν → Prop
  | .call _ _ _ => True
  | .step t => ∀ thread, r.thread t = some thread → thread.stage = .lookup →
      isDelete thread.call = true → ∀ t' thread' n, r.thread t' = some thread' →
        thread'.stage = .unlink n → nodeAt r.cache d thread.module (callKey thread.call) ≠ some n

/-- The count of the dictionary is the number of its nodes, each node is taken out of the tree at most
once and dropped for it as often, by the thread that has taken it out. -/
structure SafeRemovals (r : KvcacheRun ν) (d : Nat) : Prop where
  once : (linkedNodes r.cache d).Nodup
  count : (r.cache.dicts d).count = (linkedNodes r.cache d).length
  linked : ∀ n ∈ linkedNodes r.cache d, r.removals n = 0 ∧ r.treeDrops n = 0
  removals : ∀ n, r.removals n ≤ 1
  drops : ∀ n, r.treeDrops n = r.removals n ∨
    (r.treeDrops n = 0 ∧ ∃ t thread, r.thread t = some thread ∧ thread.stage = .dropTree n)

/-- What holds in every run. -/
def Tracked (r : KvcacheRun ν) (d : Nat) : Prop :=
  Ledger (linkedNodes r.cache d) (r.cache.dicts d).count r.cache.allocated r.removals r.treeDrops r.role

theorem Tracked.safe (tracked : Tracked r d) : SafeRemovals r d := by
  have drops : ∀ n, r.treeDrops n = r.removals n ∨
      (r.treeDrops n = 0 ∧ ∃ t thread, r.thread t = some thread ∧ thread.stage = .dropTree n) := by
    intro n
    by_cases dropping : ∃ t, r.role t = .dropper n
    · obtain ⟨t, role⟩ := dropping
      exact .inr ⟨(tracked.dropper t n role).2.1, t, role_dropper role⟩
    · exact .inl (tracked.settled n fun t role => dropping ⟨t, role⟩)
  refine ⟨tracked.once, tracked.counted, fun n member => ⟨tracked.present n member, ?_⟩,
    tracked.atMostOnce, drops⟩
  rcases drops n with same | ⟨zero, -⟩
  · rw [same, tracked.present n member]
  · exact zero

theorem Tracked.start (unused : Unused d r) : Tracked r d := by
  have noRole : ∀ t, r.role t = .other := by
    intro t
    unfold KvcacheRun.role
    rw [unused.threads]
  have empty : linkedNodes r.cache d = [] := by
    unfold linkedNodes
    rw [unused.dict]
    rfl
  have count : (r.cache.dicts d).count = 0 := by
    rw [unused.dict]
    rfl
  unfold Tracked
  rw [empty, count]
  constructor
  · exact fun n member => absurd member List.not_mem_nil
  · exact List.nodup_nil
  · rfl
  · exact fun n _ => unused.removals n
  · exact fun n _ => unused.removals n
  · intro n
    rw [unused.removals]
    exact Nat.zero_le 1
  · intro t n role
    rw [noRole] at role
    cases role
  · intro t n role
    rw [noRole] at role
    cases role
  · intro t n role
    rw [noRole] at role
    cases role
  · intro n _
    rw [unused.removals, unused.treeDrops]

/-- The removals after a section. -/
def removalsAfter (removals : Nat → Nat) : Role → Nat → Nat
  | .deleter n => bump removals n
  | _ => removals

/-- The dropped references of the tree after a section. -/
def dropsAfter (treeDrops : Nat → Nat) : Role → Nat → Nat
  | .dropper n => bump treeDrops n
  | _ => treeDrops

theorem record_ledger {stage : KvcacheStage ν} {cache : Kvcache ν} :
    (r.record stage cache).removals = removalsAfter r.removals (stageRole stage) ∧
      (r.record stage cache).treeDrops = dropsAfter r.treeDrops (stageRole stage) := by
  cases stage <;> exact ⟨rfl, rfl⟩

/-- A thread that is alone meets the condition. -/
theorem lone_sequenced (alone : ∀ t' ≠ t, r.thread t' = none) : Sequenced d r (.step t) := by
  intro thread here stage deletes t' thread' n there stage'
  by_cases same : t' = t
  · rw [same, here] at there
    cases there
    rw [stage] at stage'
    cases stage'
  · rw [alone t' same] at there
    cases there

variable [Add ν]

/-- Each step that meets the condition keeps the ledger. -/
theorem Tracked.step (tracked : Tracked r d) (meets : Sequenced d r a)
    (stepped : runStep d r a = some r') : Tracked r' d := by
  cases a with
  | call t m call =>
    unfold runStep at stepped
    dsimp only at stepped
    cases idle : r.thread t with
    | some thread =>
      rw [idle] at stepped
      cases stepped
    | none =>
      rw [idle] at stepped
      cases stepped
      unfold Tracked
      rw [call_role idle]
      exact tracked
  | step t =>
    obtain ⟨thread, next, cache, here, done, rfl⟩ := step_section stepped
    have was := role_some here
    have effect := section_effect done
    have roles : (r.record thread.stage cache).role = r.role := by
      unfold KvcacheRun.role
      rw [record_thread]
    unfold Tracked
    rw [advance_role, roles, advance_cache, advance_removals, advance_treeDrops, record_cache,
      record_ledger.1, record_ledger.2]
    generalize nextRole next = role' at effect
    cases effect with
    | same about tree =>
      rw [linked_congr tree.dicts, tree.dicts, tree.allocated]
      rcases about with about | ⟨n, about⟩
      · rw [about]
        exact tracked.idles (.inl (was.trans about))
      · rw [about]
        exact tracked.idles (.inr ⟨n, was.trans about⟩)
    | finds about deletes found tree =>
      rw [linked_congr tree.dicts, tree.dicts, tree.allocated, about]
      rw [about] at was
      refine tracked.finds was (nodeAt_some found).1 fun t' role => ?_
      obtain ⟨thread', here', stage'⟩ := role_deleter role
      exact meets thread here about deletes t' thread' _ here' stage' found
    | allocates about dicts allocated gives =>
      rw [linked_congr dicts, dicts, allocated, about]
      exact tracked.allocates (was.trans about) gives
    | links root about perm dicts allocated =>
      have now : linkedNodes cache d = root.foreach := by
        unfold linkedNodes
        rw [dicts, Function.update_self]
      rw [now, dicts, allocated, about, Function.update_self]
      exact tracked.links (was.trans about) perm
    | unlinks about =>
      rw [unlink_count, unlink_allocated, about]
      have mine := was.trans about
      exact tracked.unlinks mine (unlink_perm (tracked.deleter t _ mine).1)
    | drops about tree =>
      rw [linked_congr tree.dicts, tree.dicts, tree.allocated, about]
      exact tracked.drops (was.trans about)

/-- In every run that meets the condition the nodes of the dictionary are counted and each is taken
out and dropped for the tree at most once. -/
theorem removals_safe (reached : (kvcacheThreads d).Reachable (Sequenced d) r) : SafeRemovals r d := by
  have tracked : Tracked r d :=
    reached.invariant (fun _ unused => Tracked.start unused) fun _ _ _ before meets stepped =>
      Tracked.step before meets stepped
  exact tracked.safe

theorem step_unlink {thread : KvcacheThread ν} {n : Nat} (here : r.thread t = some thread)
    (stage : thread.stage = .unlink n) : ∃ r', runStep d r (.step t) = some r' ∧
      r'.removals = bump r.removals n ∧ ∀ t' ≠ t, r'.thread t' = r.thread t' := by
  obtain ⟨m, call, _⟩ := thread
  cases stage
  exact ⟨_, runStep_section here, rfl, fun t' differs => Function.update_of_ne differs _ _⟩

theorem step_finds {thread : KvcacheThread ν} {n : Nat} (here : r.thread t = some thread)
    (stage : thread.stage = .lookup) (deletes : isDelete thread.call = true)
    (found : nodeAt r.cache d thread.module (callKey thread.call) = some n) :
    ∃ r', runStep d r (.step t) = some r' ∧ r'.removals = r.removals ∧
      r'.thread = Function.update r.thread t (some { thread with stage := .unlink n }) := by
  have goes : (kvcacheLookupSection r.cache d thread.module thread.call).1 = .goes (.unlink n) := by
    unfold kvcacheLookupSection
    rw [kvcacheLookup_eq, found]
    cases call : thread.call with
    | set key value alloc =>
      rw [call] at deletes
      cases value <;> cases deletes
      rfl
    | _ =>
      rw [call] at deletes
      cases deletes
  obtain ⟨m, call, _⟩ := thread
  cases stage
  refine ⟨_, runStep_section here, advance_removals, ?_⟩
  unfold kvcacheSection
  rw [goes]
  rfl

/-- Where the condition is not met, the node can be taken out twice. -/
theorem second_finder {t' n : Nat} {thread thread' : KvcacheThread ν}
    (here : r.thread t = some thread) (stage : thread.stage = .lookup)
    (deletes : isDelete thread.call = true)
    (found : nodeAt r.cache d thread.module (callKey thread.call) = some n)
    (there : r.thread t' = some thread') (stage' : thread'.stage = .unlink n) :
    ∃ r', (kvcacheThreads d).exec r [.step t, .step t, .step t'] = some r' ∧
      r'.removals n = r.removals n + 2 := by
  have differs : t' ≠ t := by
    rintro rfl
    rw [here] at there
    cases there
    rw [stage] at stage'
    cases stage'
  obtain ⟨r₁, first, removals₁, threads₁⟩ := step_finds here stage deletes found
  have mine : r₁.thread t = some { thread with stage := .unlink n } := by
    rw [threads₁, Function.update_self]
  obtain ⟨r₂, second, removals₂, threads₂⟩ := step_unlink (d := d) mine rfl
  have theirs : r₂.thread t' = some thread' := by
    rw [threads₂ t' differs, threads₁, Function.update_of_ne differs, there]
  obtain ⟨r₃, third, removals₃, -⟩ := step_unlink (d := d) theirs stage'
  refine ⟨r₃, ?_, ?_⟩
  · simp only [Machine.exec, kvcacheThreads, first, second, third, Option.bind_some]
  · rw [removals₃, removals₂, removals₁]
    unfold bump
    simp only [Function.update_self]

theorem lone_step (alone : ∀ t' ≠ t, r.thread t' = none) (mine : a = .step t ∨ ∃ m c, a = .call t m c)
    (stepped : runStep d r a = some r') : ∀ t' ≠ t, r'.thread t' = none := by
  intro t' differs
  rcases mine with rfl | ⟨m, c, rfl⟩
  · obtain ⟨thread, next, cache, here, done, rfl⟩ := step_section stepped
    cases next with
    | goes stage =>
      simp only [KvcacheRun.advance, record_thread, Function.update_of_ne differs]
      exact alone t' differs
    | returns result =>
      simp only [KvcacheRun.advance, record_thread, Function.update_of_ne differs]
      exact alone t' differs
  · unfold runStep at stepped
    dsimp only at stepped
    split at stepped
    · cases stepped
      exact (Function.update_of_ne differs _ _).trans (alone t' differs)
    · cases stepped

end Runs

section Example

/-- Thread `t` sets the key `k` to `value` as module 1; the sections follow. -/
def setBy (t : Nat) (value : LuaValue Int) (sections : Nat) : List (KvcacheAct Int) :=
  .call t 1 (.set [107] value true) :: List.replicate sections (.step t)

/-- A thread stores a value and deletes it. -/
theorem removals_safe_alone : ∃ r, (kvcacheThreads 0).exec unusedRun
      (setBy 0 (.number 5) 3 ++ setBy 0 .nil 4) = some r ∧
    r.removals 0 = 1 ∧ r.treeDrops 0 = 1 ∧ SafeRemovals r 0 := by
  have mine : ∀ a ∈ setBy 0 (.number 5) 3 ++ setBy 0 .nil 4,
      a = .step 0 ∨ ∃ m c, a = KvcacheAct.call 0 m c := by
    intro a member
    simp only [setBy, List.mem_append, List.mem_cons, List.mem_replicate] at member
    rcases member with (rfl | ⟨-, rfl⟩) | rfl | ⟨-, rfl⟩
    · exact .inr ⟨_, _, rfl⟩
    · exact .inl rfl
    · exact .inr ⟨_, _, rfl⟩
    · exact .inl rfl
  refine ⟨_, rfl, rfl, rfl, removals_safe ⟨unusedRun, unusedRun_unused, ?_⟩⟩
  have alone : ∀ t ≠ 0, unusedRun.thread t = none := fun _ _ => rfl
  refine Machine.exec_reaches_where rfl alone (fun a member r before => ?_)
    fun a member r r' before stepped => lone_step before (mine a member) stepped
  rcases mine a member with rfl | ⟨m, c, rfl⟩
  · exact lone_sequenced before
  · trivial

/-- Two threads look the node of one key up before either takes it out. -/
theorem removals_unsafe : ¬ ∀ (d : Nat) (r : KvcacheRun Int),
    (kvcacheThreads d).Reachable Machine.free r → SafeRemovals r d := by
  intro safe
  obtain ⟨r, ran⟩ := Option.isSome_iff_exists.mp
    (show ((kvcacheThreads 0).exec unusedRun (setBy 0 (.number 5) 3 ++ setBy 0 .nil 1 ++
      setBy 1 .nil 2 ++ [.step 0])).isSome = true by decide)
  have twice : ((kvcacheThreads 0).exec unusedRun (setBy 0 (.number 5) 3 ++ setBy 0 .nil 1 ++
      setBy 1 .nil 2 ++ [.step 0])).map (fun r => r.removals 0) = some 2 := by decide
  have once := (safe 0 r ⟨unusedRun, unusedRun_unused, Machine.exec_reaches ran⟩).removals 0
  rw [ran, Option.map_some, Option.some.injEq] at twice
  omega

end Example

end Ksrc.Guarantees.KvCacheUnlinks

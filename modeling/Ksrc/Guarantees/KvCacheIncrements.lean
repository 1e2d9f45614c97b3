import Mathlib.Algebra.BigOperators.Group.List.Basic
import Ksrc.Library.Tally
import Ksrc.Guarantees.KvCacheThreadSteps

/-!
# No increment of the key/value cache is lost

Any number of threads increment one key of a module. A call that finds no node makes one, and
where another thread has linked its node first, it adds to that node instead. The calls take
effect one after the other, where they write the value or link the node, and each returns the sum
up to its own increment.
-/
namespace Ksrc.Guarantees.KvCacheIncrements
open Source Library KvCacheCalls KvCacheOrder KvCacheThreadSteps RbTreeElements

variable {ν : Type} {s s' : Kvcache ν} {d t x : Nat} {m : U64} {k : List U8} {n : ν}
  {threads : Nat → Option (KvcacheThread ν)} {thread : KvcacheThread ν}
  {after : Option (KvcacheThread ν)}

section Flights

/-- What a thread that increments a key knows at each stage of its call. -/
def StageOk (s : Kvcache ν) (d : Nat) (m : U64) (k : List U8) (n : ν) : KvcacheStage ν → Prop
  | .lookup | .alloc => True
  | .link x => x < s.allocated ∧ x ∉ linkedNodes s d ∧
      s.nodes x = { key := k, module := m, dict := d, refcount := 1, value := .number n,
                    freed := false }
  | .update x n' => nodeAt s d m k = some x ∧ n' = n
  | .drop x _ => nodeAt s d m k = some x
  | _ => False

/-- The call of a thread. -/
def ThreadOk (s : Kvcache ν) (d : Nat) (m : U64) (k : List U8) (thread : KvcacheThread ν) : Prop :=
  ∃ n, thread.module = m ∧ thread.call = .incr k n true ∧ StageOk s d m k n thread.stage

/-- All threads increment the key, and no two of them are about to link the same node. -/
structure Flights (s : Kvcache ν) (d : Nat) (m : U64) (k : List U8)
    (threads : Nat → Option (KvcacheThread ν)) : Prop where
  thread : ∀ t thread, threads t = some thread → ThreadOk s d m k thread
  linksOnce : ∀ t t' thread thread' x, threads t = some thread → threads t' = some thread' →
    thread.stage = .link x → thread'.stage = .link x → t = t'

/-- The node of the key stays, and the nodes that other threads are about to link. -/
structure Undisturbed (s s' : Kvcache ν) (d : Nat) (m : U64) (k : List U8) (t : Nat)
    (threads : Nat → Option (KvcacheThread ν)) : Prop where
  grows : s.allocated ≤ s'.allocated
  binding : ∀ x, nodeAt s d m k = some x → nodeAt s' d m k = some x
  links : ∀ t' ≠ t, ∀ thread x, threads t' = some thread → thread.stage = .link x →
    x ∉ linkedNodes s' d ∧ s'.nodes x = s.nodes x

theorem Undisturbed.threadOk {t' : Nat} (still : Undisturbed s s' d m k t threads) (other : t' ≠ t)
    (here : threads t' = some thread) (ok : ThreadOk s d m k thread) : ThreadOk s' d m k thread := by
  obtain ⟨n, module, call, ok⟩ := ok
  refine ⟨n, module, call, ?_⟩
  cases stage : thread.stage with
  | link x =>
    rw [stage] at ok
    obtain ⟨outside, kept⟩ := still.links t' other thread x here stage
    exact ⟨Nat.lt_of_lt_of_le ok.1 still.grows, outside, kept.trans ok.2.2⟩
  | update x n' =>
    rw [stage] at ok
    exact ⟨still.binding x ok.1, ok.2⟩
  | drop x result =>
    rw [stage] at ok
    exact still.binding x ok
  | lookup => trivial
  | alloc => trivial
  | _ =>
    rw [stage] at ok
    exact ok

/-- A thread moves on, undisturbed by the others and not disturbing them. -/
theorem Flights.step (flights : Flights s d m k threads) (still : Undisturbed s s' d m k t threads)
    (mine : ∀ thread, after = some thread → ThreadOk s' d m k thread)
    (fresh : ∀ thread x, after = some thread → thread.stage = .link x →
      ∀ t' ≠ t, ∀ thread', threads t' = some thread' → thread'.stage ≠ .link x) :
    Flights s' d m k (Function.update threads t after) := by
  constructor
  · intro t' thread here
    by_cases same : t' = t
    · rw [same, Function.update_self] at here
      exact mine thread here
    · rw [Function.update_of_ne same] at here
      exact still.threadOk same here (flights.thread t' thread here)
  · intro t₁ t₂ thread₁ thread₂ x here₁ here₂ stage₁ stage₂
    by_cases same₁ : t₁ = t
    · by_cases same₂ : t₂ = t
      · exact same₁.trans same₂.symm
      · rw [same₁, Function.update_self] at here₁
        rw [Function.update_of_ne same₂] at here₂
        exact absurd stage₂ (fresh thread₁ x here₁ stage₁ t₂ same₂ thread₂ here₂)
    · rw [Function.update_of_ne same₁] at here₁
      by_cases same₂ : t₂ = t
      · rw [same₂, Function.update_self] at here₂
        exact absurd stage₁ (fresh thread₂ x here₂ stage₂ t₁ same₁ thread₁ here₁)
      · rw [Function.update_of_ne same₂] at here₂
        exact flights.linksOnce t₁ t₂ thread₁ thread₂ x here₁ here₂ stage₁ stage₂

/-- A node that a thread is about to link is not linked. -/
theorem Flights.outside (flights : Flights s d m k threads) (here : threads t = some thread)
    (stage : thread.stage = .link x) : x < s.allocated ∧ x ∉ linkedNodes s d := by
  obtain ⟨n, -, -, ok⟩ := flights.thread t thread here
  rw [stage] at ok
  exact ⟨ok.1, ok.2.1⟩

theorem nodeAt_congr (dicts : s'.dicts = s.dicts)
    (keys : ∀ x ∈ linkedNodes s d, (s'.nodes x).key = (s.nodes x).key ∧
      (s'.nodes x).module = (s.nodes x).module) : nodeAt s' d m k = nodeAt s d m k := by
  unfold nodeAt
  rw [dicts]
  refine find_congr fun x member => ?_
  unfold kvcacheProbe
  rw [(keys x member).1, (keys x member).2]

/-- A section that writes only to linked nodes, and not to their keys. -/
theorem SameTree.undisturbed (same : SameTree s s') (flights : Flights s d m k threads)
    (others : ∀ x ∉ linkedNodes s d, s'.nodes x = s.nodes x) : Undisturbed s s' d m k t threads := by
  refine ⟨Nat.le_of_eq same.allocated.symm, fun x found => ?_, fun t' _ thread x here stage => ?_⟩
  · rw [nodeAt_congr same.dicts fun x _ => same.keys x]
    exact found
  · have outside := (flights.outside here stage).2
    rw [linked_congr same.dicts]
    exact ⟨outside, others x outside⟩

theorem notFresh {stage : KvcacheStage ν} {module : U64} {call : KvcacheCall ν}
    (notLink : ∀ x, stage ≠ .link x) (thread : KvcacheThread ν) (x : Nat)
    (here : some ⟨module, call, stage⟩ = some thread) (isLink : thread.stage = .link x) :
    ∀ t' ≠ t, ∀ thread', threads t' = some thread' → thread'.stage ≠ .link x := by
  cases here
  exact absurd isLink (notLink x)

theorem mine_some {stage : KvcacheStage ν} (ok : StageOk s d m k n stage) :
    ∀ thread, some ⟨m, .incr k n true, stage⟩ = some thread → ThreadOk s d m k thread := by
  intro thread here
  cases here
  exact ⟨n, rfl, rfl, ok⟩

/-- A value is written to a node. -/
def stored (s : Kvcache ν) (x : Nat) (v : LuaValue ν) : Kvcache ν :=
  s.setNode x fun cell => { cell with value := v }

theorem stored_sameTree {v : LuaValue ν} : SameTree s (stored s x v) :=
  setNode_sameTree fun _ => ⟨rfl, rfl⟩

theorem stored_self {v : LuaValue ν} : (stored s x v).nodes x = { s.nodes x with value := v } :=
  setNode_self

theorem stored_nodeAt {v : LuaValue ν} : nodeAt (stored s x v) d m k = nodeAt s d m k :=
  nodeAt_congr rfl fun x' _ => stored_sameTree.keys x'

end Flights

section Effects

variable {returned log : List (Returned ν)} {pending : List (Nat × Returned ν)}
  {result : KvcacheResult ν} {e e' : Returned ν} {slot : Option (KvcacheThread ν)}

/-- A thread whose call has taken effect and has not returned yet. -/
def Answered (slot : Option (KvcacheThread ν)) (e : Returned ν) : Prop :=
  ∃ thread node result, slot = some thread ∧ thread.stage = .drop node result ∧
    e = ⟨thread.module, thread.call, result⟩

theorem Answered.unique (answered : Answered slot e) (answered' : Answered slot e') : e = e' := by
  obtain ⟨thread, node, result, here, stage, rfl⟩ := answered
  obtain ⟨thread', node', result', here', stage', rfl⟩ := answered'
  cases here.symm.trans here'
  cases stage.symm.trans stage'
  rfl

/-- The calls that took effect are those that have returned and those that are about to. -/
structure Effects (returned log : List (Returned ν)) (pending : List (Nat × Returned ν))
    (threads : Nat → Option (KvcacheThread ν)) : Prop where
  once : pending.Nodup
  answered : ∀ t e, (t, e) ∈ pending ↔ Answered (threads t) e
  order : log.Perm (returned ++ pending.map Prod.snd)

theorem Effects.same (effects : Effects returned log pending threads)
    (was : ∀ e, ¬ Answered (threads t) e) (now : ∀ e, ¬ Answered after e) :
    Effects returned log pending (Function.update threads t after) := by
  refine ⟨effects.once, fun t' e => ?_, effects.order⟩
  rw [effects.answered]
  by_cases same : t' = t
  · rw [same, Function.update_self]
    exact ⟨fun answered => absurd answered (was e), fun answered => absurd answered (now e)⟩
  · rw [Function.update_of_ne same]

/-- A call takes effect and is about to return. -/
theorem Effects.answers (effects : Effects returned log pending threads)
    (was : ∀ e, ¬ Answered (threads t) e) (now : Answered after e) :
    Effects returned (e :: log) ((t, e) :: pending) (Function.update threads t after) := by
  have outside : (t, e) ∉ pending := fun inside => was e ((effects.answered t e).mp inside)
  refine ⟨List.nodup_cons.mpr ⟨outside, effects.once⟩, fun t' e' => ?_, ?_⟩
  · rw [List.mem_cons, effects.answered]
    by_cases same : t' = t
    · subst same
      rw [Function.update_self]
      constructor
      · intro answered
        rcases answered with same | answered
        · cases same
          exact now
        · exact absurd answered (was e')
      · intro answered
        exact .inl (by rw [answered.unique now])
    · rw [Function.update_of_ne same]
      constructor
      · intro answered
        rcases answered with same' | answered
        · cases same'
          exact absurd rfl same
        · exact answered
      · exact .inr
  · rw [List.map_cons]
    exact (effects.order.cons e).trans List.perm_middle.symm

/-- A call takes effect and returns at once. -/
theorem Effects.finishes (effects : Effects returned log pending threads) :
    Effects (e :: returned) (e :: log) pending threads :=
  ⟨effects.once, effects.answered, effects.order.cons e⟩

/-- A call returns that has taken effect. -/
theorem Effects.returns (effects : Effects returned log pending threads)
    (was : Answered (threads t) e) (now : ∀ e, ¬ Answered after e) :
    ∃ pending', Effects (e :: returned) log pending' (Function.update threads t after) := by
  obtain ⟨before, rest, split⟩ := List.append_of_mem ((effects.answered t e).mpr was)
  have perm : pending.Perm ((t, e) :: (before ++ rest)) := by
    rw [split]
    exact List.perm_middle
  obtain ⟨outside, once⟩ := List.nodup_cons.mp (perm.nodup effects.once)
  refine ⟨before ++ rest, once, fun t' e' => ?_, ?_⟩
  · have member : (t', e') ∈ pending ↔ (t', e') = (t, e) ∨ (t', e') ∈ before ++ rest := by
      rw [perm.mem_iff, List.mem_cons]
    rw [effects.answered] at member
    by_cases same : t' = t
    · subst same
      rw [Function.update_self]
      constructor
      · intro inside
        have same := was.unique (member.mpr (.inr inside))
        rw [← same] at inside
        exact absurd inside outside
      · exact fun answered => absurd answered (now e')
    · rw [Function.update_of_ne same, member]
      constructor
      · exact .inr
      · intro answered
        rcases answered with same' | inside
        · cases same'
          exact absurd rfl same
        · exact inside
  · have permuted := (perm.map Prod.snd).append_left returned
    rw [List.map_cons] at permuted
    exact effects.order.trans (permuted.trans List.perm_middle)

theorem notAnswered_stage {module : U64} {call : KvcacheCall ν} {stage : KvcacheStage ν}
    (notDrop : ∀ node result, stage ≠ .drop node result) (e : Returned ν) :
    ¬ Answered (some ⟨module, call, stage⟩) e := by
  intro answered
  obtain ⟨thread, node, result, here, isDrop, -⟩ := answered
  cases here
  exact notDrop node result isDrop

theorem notAnswered_none (e : Returned ν) : ¬ Answered none e := by
  intro answered
  obtain ⟨thread, node, result, here, -⟩ := answered
  cases here

end Effects

section Counter

variable [AddCommMonoid ν] {returned log : List (Returned ν)} {initial : ν} {e : Returned ν}
  {holders : Nat}

/-- What a call adds. -/
def increment : KvcacheCall ν → ν
  | .incr _ n _ => n
  | _ => 0

/-- The sum of what some calls add. -/
def total (calls : List (Returned ν)) : ν := (calls.map fun e => increment e.call).sum

/-- Calls in the order of their effect, the latest first; each returns the sum of the initial number
and of the increments up to its own. -/
def PartialSums (initial : ν) : List (Returned ν) → Prop
  | [] => True
  | e :: earlier =>
    e.result = .value (.number (initial + total (e :: earlier))) ∧ PartialSums initial earlier

/-- A value as a number, `0` where there is none. -/
def asNumber : LuaValue ν → Option ν
  | .nil => some 0
  | .number n => some n
  | _ => none

theorem total_perm {log' : List (Returned ν)} (perm : log.Perm log') : total log = total log' :=
  (perm.map _).sum_eq

theorem total_cons : initial + total (e :: log) = initial + total log + increment e.call := by
  unfold total
  rw [List.map_cons, List.sum_cons, add_comm (increment e.call), add_assoc]

/-- The number in the node of the key, and the references to the node. -/
structure Counter (s : Kvcache ν) (d : Nat) (m : U64) (k : List U8) (initial : ν)
    (log : List (Returned ν)) (holders : Nat) : Prop where
  below : ∀ x ∈ linkedNodes s d, x < s.allocated
  sums : PartialSums initial log
  absent : nodeAt s d m k = none → log = [] ∧ initial = 0
  number : ∀ x, nodeAt s d m k = some x → (s.nodes x).value = .number (initial + total log)
  held : ∀ x, nodeAt s d m k = some x → holders + 1 ≤ (s.nodes x).refcount

/-- A section that leaves the number as it is. -/
theorem Counter.keeps {holders' : Nat} (counter : Counter s d m k initial log holders)
    (dicts : s'.dicts = s.dicts) (allocated : s.allocated ≤ s'.allocated)
    (keys : ∀ x ∈ linkedNodes s d, (s'.nodes x).key = (s.nodes x).key ∧
      (s'.nodes x).module = (s.nodes x).module)
    (value : ∀ x, nodeAt s d m k = some x → (s'.nodes x).value = (s.nodes x).value)
    (held : ∀ x, nodeAt s d m k = some x → holders' + 1 ≤ (s'.nodes x).refcount) :
    Counter s' d m k initial log holders' := by
  have found : nodeAt s' d m k = nodeAt s d m k := nodeAt_congr dicts keys
  constructor
  · rw [linked_congr dicts]
    exact fun x member => Nat.lt_of_lt_of_le (counter.below x member) allocated
  · exact counter.sums
  · rw [found]
    exact counter.absent
  · rw [found]
    exact fun x here => (value x here).trans (counter.number x here)
  · rw [found]
    exact held

theorem Counter.hold (counter : Counter s d m k initial log holders)
    (found : nodeAt s d m k = some x) :
    Counter (kvcacheNodeHold s x) d m k initial log (holders + 1) := by
  refine counter.keeps rfl (Nat.le_refl _) (fun x' _ => hold_sameTree.keys x') ?_ ?_
  · intro x' here
    cases found.symm.trans here
    unfold kvcacheNodeHold
    rw [setNode_self]
  · intro x' here
    cases found.symm.trans here
    have held := counter.held x found
    unfold kvcacheNodeHold
    rw [setNode_self]
    dsimp only
    omega

theorem Counter.alloc (counter : Counter s d m k initial log holders) :
    Counter (created s d m k (.number n)) d m k initial log holders := by
  have same : ∀ x ∈ linkedNodes s d, (created s d m k (.number n)).nodes x = s.nodes x :=
    fun x member => created_other (counter.below x member)
  refine counter.keeps rfl (Nat.le_succ _) (fun x member => ?_) (fun x here => ?_) fun x here => ?_
  · rw [same x member]
    exact ⟨rfl, rfl⟩
  · rw [same x (nodeAt_some here).1]
  · rw [same x (nodeAt_some here).1]
    exact counter.held x here

/-- The new node of a thread that is not needed. -/
theorem Counter.free (counter : Counter s d m k initial log holders) (outside : x ∉ linkedNodes s d) :
    Counter (kvcacheNodeFree s x) d m k initial log holders := by
  have same : ∀ x' ∈ linkedNodes s d, (kvcacheNodeFree s x).nodes x' = s.nodes x' := by
    intro x' member
    have differs : x' ≠ x := fun same => outside (same ▸ member)
    exact setNode_other differs
  refine counter.keeps rfl (Nat.le_refl _) (fun x _ => free_sameTree.keys x) (fun x here => ?_)
    fun x here => ?_
  · rw [same x (nodeAt_some here).1]
  · rw [same x (nodeAt_some here).1]
    exact counter.held x here

theorem Counter.drop (counter : Counter s d m k initial log holders) (some_ : 0 < holders)
    (found : nodeAt s d m k = some x) : (s.nodes x).refcount ≠ 1 ∧
      Counter (kvcacheNodeDrop s x) d m k initial log (holders - 1) := by
  have held := counter.held x found
  have notLast : (s.nodes x).refcount ≠ 1 := by omega
  refine ⟨notLast, ?_⟩
  refine counter.keeps drop_dicts (Nat.le_of_eq drop_allocated.symm)
    (fun x' _ => drop_sameTree.keys x') ?_ ?_
  · intro x' here
    cases found.symm.trans here
    rw [kvcacheNodeDrop_held notLast, setNode_self]
  · intro x' here
    cases found.symm.trans here
    rw [kvcacheNodeDrop_held notLast, setNode_self]
    dsimp only
    omega

/-- A call that adds to the number takes effect. -/
theorem Counter.update (counter : Counter s d m k initial log holders)
    (found : nodeAt s d m k = some x)
    (answer : e.result = .value (.number (initial + total (e :: log)))) :
    Counter (stored s x (.number (initial + total (e :: log)))) d m k initial (e :: log) holders := by
  constructor
  · exact counter.below
  · exact ⟨answer, counter.sums⟩
  · rw [stored_nodeAt, found]
    exact fun none => by cases none
  · rw [stored_nodeAt]
    intro x' here
    cases found.symm.trans here
    rw [stored_self]
  · rw [stored_nodeAt]
    intro x' here
    cases found.symm.trans here
    rw [stored_self]
    exact counter.held x found

/-- The call that links the node takes effect. -/
theorem Counter.link {root : RbTree Nat} (counter : Counter s d m k initial log 0)
    (absent : nodeAt s d m k = none) (inside : x < s.allocated)
    (perm : root.foreach.Perm (x :: linkedNodes s d))
    (finds : root.find (kvcacheProbe s.nodes m k) = some x)
    (dict : (s'.dicts d).root = root) (allocated : s'.allocated = s.allocated)
    (nodes : s'.nodes = s.nodes) (value : (s.nodes x).value = .number (increment e.call))
    (refcount : (s.nodes x).refcount = 1)
    (answer : e.result = .value (.number (increment e.call))) :
    nodeAt s' d m k = some x ∧ Counter s' d m k initial (e :: log) 0 := by
  obtain ⟨rfl, rfl⟩ := counter.absent absent
  have found : nodeAt s' d m k = some x := by
    unfold nodeAt
    rw [dict, nodes]
    exact finds
  have sum : (0 : ν) + total [e] = increment e.call := by
    unfold total
    rw [List.map_singleton, List.sum_singleton, zero_add]
  refine ⟨found, ?_⟩
  constructor
  · unfold linkedNodes
    rw [dict, allocated]
    intro x' member
    rcases List.mem_cons.mp (perm.subset member) with rfl | member
    · exact inside
    · exact counter.below x' member
  · exact ⟨by rw [sum, answer], trivial⟩
  · rw [found]
    exact fun none => by cases none
  · rw [found, nodes]
    intro x' here
    cases here
    rw [value, sum]
  · rw [found, nodes]
    intro x' here
    cases here
    rw [refcount]
    decide

end Counter

section Holders

variable {slot : Option (KvcacheThread ν)} {holders : Nat}

/-- Whether a stage comes with a reference to the node of the key. -/
def stageHolds : KvcacheStage ν → Bool
  | .update _ _ | .drop _ _ => true
  | _ => false

def slotHolds : Option (KvcacheThread ν) → Bool
  | none => false
  | some thread => stageHolds thread.stage

/-- How many threads hold a reference to the node of the key. -/
def Holders (threads : Nat → Option (KvcacheThread ν)) (holders : Nat) : Prop :=
  Tally holders fun t => slotHolds (threads t) = true

theorem Holders.same (count : Holders threads holders) (kept : slotHolds after = slotHolds (threads t)) :
    Holders (Function.update threads t after) holders := by
  refine count.congr fun t' => ?_
  by_cases same : t' = t
  · rw [same, Function.update_self, kept]
  · rw [Function.update_of_ne same]

theorem Holders.gain (count : Holders threads holders) (was : slotHolds (threads t) = false)
    (now : slotHolds after = true) : Holders (Function.update threads t after) (holders + 1) := by
  have new : ¬ slotHolds (threads t) = true := by
    rw [was]
    exact Bool.false_ne_true
  refine Tally.gain (x := t) count new fun t' => ?_
  by_cases same : t' = t
  · rw [same, Function.update_self, now]
    simp
  · rw [Function.update_of_ne same]
    simp [same]

theorem Holders.lose (count : Holders threads holders) (was : slotHolds (threads t) = true)
    (now : slotHolds after = false) : Holders (Function.update threads t after) (holders - 1) := by
  refine Tally.lose (x := t) count was fun t' => ?_
  by_cases same : t' = t
  · rw [same, Function.update_self, now]
    simp
  · rw [Function.update_of_ne same]
    simp [same]

/-- Where there is no node, no thread holds it. -/
theorem Flights.absent_holders (flights : Flights s d m k threads) (absent : nodeAt s d m k = none)
    (t : Nat) : ¬ slotHolds (threads t) = true := by
  intro holds
  cases here : threads t with
  | none =>
    rw [here] at holds
    cases holds
  | some thread =>
    obtain ⟨n, -, -, ok⟩ := flights.thread t thread here
    rw [here, slotHolds] at holds
    cases stage : thread.stage with
    | update x n' =>
      rw [stage] at ok
      cases absent.symm.trans ok.1
    | drop x result =>
      rw [stage] at ok
      cases absent.symm.trans ok
    | _ =>
      rw [stage] at holds
      cases holds

end Holders

section Sections

theorem lookup_absent (absent : nodeAt s d m k = none) :
    kvcacheLookupSection s d m (.incr k n true) = (.goes .alloc, s) := by
  unfold kvcacheLookupSection
  rw [kvcacheLookup_eq, callKey, absent]

theorem lookup_present (found : nodeAt s d m k = some x) :
    kvcacheLookupSection s d m (.incr k n true) = (.goes (.update x n), kvcacheNodeHold s x) := by
  unfold kvcacheLookupSection
  rw [kvcacheLookup_eq, callKey, found]

theorem alloc_section : kvcacheAllocSection s d m (.incr k n true) =
    (.goes (.link s.allocated), created s d m k (.number n)) := by
  simp only [kvcacheAllocSection, not_true_eq_false, if_false, alloc_eq, created_fill]

/-- Linking the node, or meeting the node that another thread has linked. -/
theorem link_cases {next : KvcacheNext ν} (room : (s.dicts d).count < (s.dicts d).capacity)
    (key : (s.nodes x).key = k) (module : (s.nodes x).module = m)
    (done : kvcacheLinkSection s d m (.incr k n true) x = (next, s')) :
    (∃ prev, nodeAt s d m k = some prev ∧ next = .goes (.update prev n) ∧
      s' = kvcacheNodeFree (kvcacheNodeHold s prev) x) ∨
    (nodeAt s d m k = none ∧ next = .returns (.value (.number n)) ∧ ∃ root : RbTree Nat,
      root.foreach.Perm (x :: linkedNodes s d) ∧ root.find (kvcacheProbe s.nodes m k) = some x ∧
      (s'.dicts d).root = root ∧ s'.allocated = s.allocated ∧ s'.nodes = s.nodes) := by
  have probe : kvcacheCmp s.nodes x = kvcacheProbe s.nodes m k := by
    unfold kvcacheCmp
    rw [key, module]
  have reflexive : kvcacheCmp s.nodes x x = 0 := by
    rw [probe]
    unfold kvcacheProbe
    rw [cmp_zero, key, module]
    exact ⟨rfl, rfl⟩
  unfold kvcacheLinkSection kvcacheModuleLink at done
  rw [if_neg (Int.not_le.mpr room)] at done
  cases inserted : (s.dicts d).root.insert (kvcacheCmp s.nodes) x with
  | mk met root =>
    rw [inserted] at done
    cases met with
    | some prev =>
      cases done
      obtain ⟨found, -⟩ := insert_some inserted
      rw [probe] at found
      exact .inl ⟨prev, found, rfl, rfl⟩
    | none =>
      obtain ⟨absent, perm, finds⟩ := insert_none inserted
      have found := finds reflexive
      rw [probe] at absent found
      refine .inr ⟨absent, ?_⟩
      dsimp only at done
      by_cases noModule : m = 0
      · rw [if_pos noModule] at done
        cases done
        refine ⟨rfl, root, perm, found, ?_, rfl, rfl⟩
        simp only [Kvcache.setDict, Function.update_self]
      · rw [if_neg noModule] at done
        cases done
        refine ⟨rfl, root, perm, found, ?_, rfl, rfl⟩
        simp only [Kvcache.setDict, Function.update_self]

end Sections

section Steps

variable [AddCommMonoid ν] {returned : List (Returned ν)} {initial : ν}

/-- What holds in every run: some order of the calls, some of which have not returned yet, and some
number of references to the node. -/
def Incremented (s : Kvcache ν) (d : Nat) (m : U64) (k : List U8) (initial : ν)
    (threads : Nat → Option (KvcacheThread ν)) (returned : List (Returned ν)) : Prop :=
  ∃ log pending holders, Flights s d m k threads ∧ Effects returned log pending threads ∧
    Counter s d m k initial log holders ∧ Holders threads holders

/-- A thread calls, or finds no node. -/
theorem Incremented.moves {stage : KvcacheStage ν}
    (inc : Incremented s d m k initial threads returned)
    (was : ∀ e, ¬ Answered (threads t) e) (holdsNot : slotHolds (threads t) = false)
    (goes : stage = .lookup ∨ stage = .alloc) :
    Incremented s d m k initial
      (Function.update threads t (some ⟨m, .incr k n true, stage⟩)) returned := by
  obtain ⟨log, pending, holders, flights, effects, counter, count⟩ := inc
  have still : Undisturbed s s d m k t threads :=
    SameTree.undisturbed (.refl s) flights fun _ _ => rfl
  have ok : StageOk s d m k n stage := by
    rcases goes with rfl | rfl <;> trivial
  have notLink : ∀ x, stage ≠ .link x := by
    rcases goes with rfl | rfl <;> simp
  have notDrop : ∀ node result, stage ≠ .drop node result := by
    rcases goes with rfl | rfl <;> simp
  have keeps : slotHolds (some ⟨m, .incr k n true, stage⟩) = slotHolds (threads t) := by
    rw [holdsNot]
    rcases goes with rfl | rfl <;> rfl
  exact ⟨log, pending, holders, flights.step still (mine_some ok) (notFresh notLink),
    effects.same was (notAnswered_stage notDrop), counter, count.same keeps⟩

/-- A thread finds the node. -/
theorem Incremented.finds (inc : Incremented s d m k initial threads returned)
    (here : threads t = some ⟨m, .incr k n true, .lookup⟩) (found : nodeAt s d m k = some x) :
    Incremented (kvcacheNodeHold s x) d m k initial
      (Function.update threads t (some ⟨m, .incr k n true, .update x n⟩)) returned := by
  obtain ⟨log, pending, holders, flights, effects, counter, count⟩ := inc
  have member := (nodeAt_some found).1
  have still : Undisturbed s (kvcacheNodeHold s x) d m k t threads := by
    refine SameTree.undisturbed hold_sameTree flights fun x' outside => setNode_other ?_
    rintro rfl
    exact outside member
  have ok : StageOk (kvcacheNodeHold s x) d m k n (.update x n) := ⟨still.binding x found, rfl⟩
  have was : ∀ e, ¬ Answered (threads t) e := by
    rw [here]
    exact notAnswered_stage (by simp)
  refine ⟨log, pending, holders + 1, flights.step still (mine_some ok) (notFresh (by simp)),
    effects.same was (notAnswered_stage (by simp)), counter.hold found, count.gain ?_ rfl⟩
  rw [here]
  rfl

/-- A thread is given a new node. -/
theorem Incremented.allocates (inc : Incremented s d m k initial threads returned)
    (here : threads t = some ⟨m, .incr k n true, .alloc⟩) :
    Incremented (created s d m k (.number n)) d m k initial
      (Function.update threads t (some ⟨m, .incr k n true, .link s.allocated⟩)) returned := by
  obtain ⟨log, pending, holders, flights, effects, counter, count⟩ := inc
  have found : nodeAt (created s d m k (.number n)) d m k = nodeAt s d m k := by
    refine nodeAt_congr rfl fun x member => ?_
    rw [created_other (counter.below x member)]
    exact ⟨rfl, rfl⟩
  have still : Undisturbed s (created s d m k (.number n)) d m k t threads := by
    refine ⟨Nat.le_succ _, fun x here => found.trans here, fun t' _ thread x here stage => ?_⟩
    obtain ⟨old, outside⟩ := flights.outside here stage
    exact ⟨outside, created_other old⟩
  have ok : StageOk (created s d m k (.number n)) d m k n (.link s.allocated) := by
    refine ⟨Nat.lt_succ_self _, fun member => ?_, ?_⟩
    · exact Nat.lt_irrefl _ (counter.below _ member)
    · rw [created_nodes, Function.update_self]
  refine ⟨log, pending, holders, flights.step still (mine_some ok) ?_,
    effects.same ?_ (notAnswered_stage (by simp)), counter.alloc, count.same ?_⟩
  · intro thread x new stage t' _ thread' here' stage'
    cases new
    cases stage
    exact Nat.lt_irrefl _ (flights.outside here' stage').1
  · rw [here]
    exact notAnswered_stage (by simp)
  · rw [here]
    rfl

/-- A thread meets the node that another one has linked, and frees its own. -/
theorem Incremented.meets (inc : Incremented s d m k initial threads returned) {prev : Nat}
    (here : threads t = some ⟨m, .incr k n true, .link x⟩) (found : nodeAt s d m k = some prev) :
    Incremented (kvcacheNodeFree (kvcacheNodeHold s prev) x) d m k initial
      (Function.update threads t (some ⟨m, .incr k n true, .update prev n⟩)) returned := by
  obtain ⟨log, pending, holders, flights, effects, counter, count⟩ := inc
  have member := (nodeAt_some found).1
  have outside := (flights.outside here rfl).2
  have same : SameTree s (kvcacheNodeFree (kvcacheNodeHold s prev) x) :=
    hold_sameTree.trans free_sameTree
  have kept : nodeAt (kvcacheNodeFree (kvcacheNodeHold s prev) x) d m k = nodeAt s d m k :=
    nodeAt_congr same.dicts fun x _ => same.keys x
  have still : Undisturbed s (kvcacheNodeFree (kvcacheNodeHold s prev) x) d m k t threads := by
    refine ⟨Nat.le_refl _, fun x' found' => kept.trans found', ?_⟩
    intro t' other thread x' here' stage
    have outside' := (flights.outside here' stage).2
    have notMine : x' ≠ x := by
      rintro rfl
      exact other (flights.linksOnce t' t thread _ x' here' here stage rfl)
    have notPrev : x' ≠ prev := by
      rintro rfl
      exact outside' member
    exact ⟨outside', (setNode_other notMine).trans (setNode_other notPrev)⟩
  have ok : StageOk (kvcacheNodeFree (kvcacheNodeHold s prev) x) d m k n (.update prev n) :=
    ⟨kept.trans found, rfl⟩
  refine ⟨log, pending, holders + 1, flights.step still (mine_some ok) (notFresh (by simp)),
    effects.same ?_ (notAnswered_stage (by simp)), (counter.hold found).free outside,
    count.gain ?_ rfl⟩
  · rw [here]
    exact notAnswered_stage (by simp)
  · rw [here]
    rfl

/-- A thread links its node. -/
theorem Incremented.links (inc : Incremented s d m k initial threads returned) {root : RbTree Nat}
    (here : threads t = some ⟨m, .incr k n true, .link x⟩) (absent : nodeAt s d m k = none)
    (perm : root.foreach.Perm (x :: linkedNodes s d))
    (finds : root.find (kvcacheProbe s.nodes m k) = some x)
    (dict : (s'.dicts d).root = root) (allocated : s'.allocated = s.allocated)
    (nodes : s'.nodes = s.nodes) :
    Incremented s' d m k initial (Function.update threads t none)
      (⟨m, .incr k n true, .value (.number n)⟩ :: returned) := by
  obtain ⟨log, pending, holders, flights, effects, counter, count⟩ := inc
  obtain ⟨n', -, call, inside, outside, new⟩ := flights.thread t _ here
  cases call
  have none_ : holders = 0 := Tally.eq_zero count (flights.absent_holders absent)
  subst none_
  obtain ⟨found, counter⟩ := counter.link (e := ⟨m, .incr k n true, .value (.number n)⟩) absent inside
    perm finds dict allocated nodes (by rw [new]; rfl) (by rw [new]) rfl
  have still : Undisturbed s s' d m k t threads := by
    refine ⟨Nat.le_of_eq allocated.symm, fun x' found' => ?_, ?_⟩
    · cases absent.symm.trans found'
    · intro t' other thread x' here' stage
      have notMine : x' ≠ x := by
        rintro rfl
        exact other (flights.linksOnce t' t thread _ x' here' here stage rfl)
      refine ⟨?_, by rw [nodes]⟩
      unfold linkedNodes
      rw [dict, perm.mem_iff, List.mem_cons, not_or]
      exact ⟨notMine, (flights.outside here' stage).2⟩
  refine ⟨_, pending, 0, flights.step still ?_ ?_,
    (effects.same ?_ notAnswered_none).finishes, counter, count.same ?_⟩
  · intro thread here
    cases here
  · intro thread x here
    cases here
  · rw [here]
    exact notAnswered_stage (by simp)
  · rw [here]
    rfl

/-- A thread adds to the number. -/
theorem Incremented.updates (inc : Incremented s d m k initial threads returned)
    (here : threads t = some ⟨m, .incr k n true, .update x n⟩) :
    ∃ sum cache, kvcacheSection s d m (.incr k n true) (.update x n) =
        (.goes (.drop x (.value (.number sum))), cache) ∧
      Incremented cache d m k initial (Function.update threads t
        (some ⟨m, .incr k n true, .drop x (.value (.number sum))⟩)) returned := by
  obtain ⟨log, pending, holders, flights, effects, counter, count⟩ := inc
  obtain ⟨n', -, call, found, rfl⟩ := flights.thread t _ here
  have number := counter.number x found
  have member := (nodeAt_some found).1
  let e : Returned ν := ⟨m, .incr k n true, .value (.number (initial + total log + n))⟩
  have sum : initial + total (e :: log) = initial + total log + n := total_cons
  have counter := counter.update (e := e) found (by rw [sum])
  rw [sum] at counter
  have still : Undisturbed s (stored s x (.number (initial + total log + n))) d m k t threads := by
    refine SameTree.undisturbed stored_sameTree flights fun x' outside => setNode_other ?_
    rintro rfl
    exact outside member
  refine ⟨initial + total log + n, stored s x (.number (initial + total log + n)), ?_,
    ⟨e :: log, (t, e) :: pending, holders,
      flights.step still (mine_some (stored_nodeAt.trans found)) (notFresh (by simp)),
      effects.answers ?_ ⟨_, x, _, rfl, rfl, rfl⟩, counter, count.same ?_⟩⟩
  · simp only [kvcacheSection, kvcacheUpdate, number]
    rfl
  · rw [here]
    exact notAnswered_stage (by simp)
  · rw [here]
    rfl

/-- A thread returns. -/
theorem Incremented.returns {result : KvcacheResult ν}
    (inc : Incremented s d m k initial threads returned)
    (here : threads t = some ⟨m, .incr k n true, .drop x result⟩) :
    Incremented (kvcacheNodeDrop s x) d m k initial (Function.update threads t none)
      (⟨m, .incr k n true, result⟩ :: returned) := by
  obtain ⟨log, pending, holders, flights, effects, counter, count⟩ := inc
  obtain ⟨n', -, call, found⟩ := flights.thread t _ here
  have holds : slotHolds (threads t) = true := by
    rw [here]
    rfl
  obtain ⟨notLast, counter⟩ := counter.drop (Tally.pos count holds) found
  have answered : Answered (threads t) ⟨m, .incr k n true, result⟩ := by
    rw [here]
    exact ⟨_, x, result, rfl, rfl, rfl⟩
  obtain ⟨pending', effects⟩ := effects.returns answered notAnswered_none
  refine ⟨log, pending', holders - 1, flights.step ?_ ?_ ?_, effects, counter,
    count.lose holds rfl⟩
  · refine SameTree.undisturbed drop_sameTree flights fun x' outside => drop_other ?_
    rintro rfl
    exact outside (nodeAt_some found).1
  · intro thread here
    cases here
  · intro thread x here
    cases here

end Steps

section Runs

variable [AddCommMonoid ν] {initial : ν} {r r' : KvcacheRun ν} {a : KvcacheAct ν}

/-- No call is in flight, and the key is absent or holds a number. -/
structure NumberAt (d : Nat) (m : U64) (k : List U8) (initial : ν) (r : KvcacheRun ν) : Prop where
  below : ∀ x ∈ linkedNodes r.cache d, x < r.cache.allocated
  number : (nodeAt r.cache d m k = none ∧ initial = 0) ∨
    ∃ x, nodeAt r.cache d m k = some x ∧ (r.cache.nodes x).value = .number initial ∧
      1 ≤ (r.cache.nodes x).refcount
  threads : ∀ t, r.thread t = none
  returned : r.returned = []

/-- The threads of the cache, from a state in which the key is absent or holds a number. -/
def incrementers (d : Nat) (m : U64) (k : List U8) (initial : ν) :
    Machine (KvcacheRun ν) (KvcacheAct ν) where
  start := NumberAt d m k initial
  step := runStep d

/-- One module increments one key, no allocation fails, and the capacity is not reached. -/
def OnlyIncrements (d : Nat) (m : U64) (k : List U8) (r : KvcacheRun ν) : KvcacheAct ν → Prop
  | .call _ m' call => m' = m ∧ ∃ n, call = .incr k n true
  | .step _ => (r.cache.dicts d).count < (r.cache.dicts d).capacity

theorem Incremented.start (number : NumberAt d m k initial r) :
    Incremented r.cache d m k initial r.thread r.returned := by
  rw [number.returned]
  have noThread : ∀ t thread, r.thread t ≠ some thread := by
    intro t thread here
    rw [number.threads] at here
    cases here
  refine ⟨[], [], 0, ⟨?_, ?_⟩, ⟨List.nodup_nil, fun t e => ?_, .refl _⟩, ?_, ?_⟩
  · exact fun t thread here => absurd here (noThread t thread)
  · exact fun t t' thread thread' x here => absurd here (noThread t thread)
  · rw [number.threads]
    exact ⟨fun inside => absurd inside List.not_mem_nil, fun answered =>
      absurd answered (notAnswered_none e)⟩
  · rcases number.number with ⟨absent, zero⟩ | ⟨x, found, value, held⟩
    · refine ⟨number.below, trivial, fun _ => ⟨rfl, zero⟩, fun x found => ?_, fun x found => ?_⟩
      · cases absent.symm.trans found
      · cases absent.symm.trans found
    · refine ⟨number.below, trivial, fun absent => ?_, fun x' found' => ?_, fun x' found' => ?_⟩
      · cases absent.symm.trans found
      · cases found.symm.trans found'
        rw [value]
        exact congrArg LuaValue.number (add_zero initial).symm
      · cases found.symm.trans found'
        exact held
  · refine Tally.zero fun t => ?_
    rw [number.threads]
    exact Bool.false_ne_true

/-- Each step of a run keeps the order of the calls. -/
theorem Incremented.step (inc : Incremented r.cache d m k initial r.thread r.returned)
    (meets : OnlyIncrements d m k r a) (stepped : runStep d r a = some r') :
    Incremented r'.cache d m k initial r'.thread r'.returned := by
  cases a with
  | call t m' call =>
    obtain ⟨rfl, n, rfl⟩ := meets
    unfold runStep at stepped
    dsimp only at stepped
    cases idle : r.thread t with
    | some thread =>
      rw [idle] at stepped
      cases stepped
    | none =>
      rw [idle] at stepped
      cases stepped
      refine inc.moves ?_ ?_ (.inl rfl)
      · rw [idle]
        exact notAnswered_none
      · rw [idle]
        rfl
  | step t =>
    obtain ⟨⟨module, call, stage⟩, next, cache, here, done, rfl⟩ := step_section stepped
    obtain ⟨n, rfl, rfl, ok⟩ : ThreadOk r.cache d m k ⟨module, call, stage⟩ := by
      obtain ⟨log, pending, holders, flights, -⟩ := inc
      exact flights.thread t _ here
    cases stage with
    | lookup =>
      cases found : nodeAt r.cache d module k with
      | none =>
        cases (lookup_absent found).symm.trans done
        refine inc.moves ?_ ?_ (.inr rfl)
        · rw [here]
          exact notAnswered_stage (by simp)
        · rw [here]
          rfl
      | some x =>
        cases (lookup_present found).symm.trans done
        exact inc.finds here found
    | alloc =>
      cases alloc_section.symm.trans done
      exact inc.allocates here
    | link x =>
      obtain ⟨-, -, new⟩ := ok
      rcases link_cases meets (by rw [new]) (by rw [new]) done with
        ⟨prev, found, rfl, rfl⟩ | ⟨absent, rfl, root, perm, finds, dict, allocated, nodes⟩
      · exact inc.meets here found
      · exact inc.links here absent perm finds dict allocated nodes
    | update x n' =>
      obtain ⟨-, rfl⟩ := ok
      obtain ⟨sum, after, isDone, inc⟩ := inc.updates here
      cases isDone.symm.trans done
      exact inc
    | drop x result =>
      cases done
      exact inc.returns here
    | refill x value => exact absurd ok id
    | read x => exact absurd ok id
    | unlink x => exact absurd ok id
    | dropTree x => exact absurd ok id

/-- When all calls have returned, no increment is lost, and each call has returned the sum up to its
own in some order of the calls. -/
theorem no_increment_lost
    (reached : (incrementers d m k initial).Reachable (OnlyIncrements d m k) r)
    (idle : ∀ t, r.thread t = none) :
    asNumber (valueAt r.cache d m k) = some (initial + total r.returned) ∧
      ∃ order, order.Perm r.returned ∧ PartialSums initial order := by
  have inc : Incremented r.cache d m k initial r.thread r.returned :=
    show (fun r : KvcacheRun ν => Incremented r.cache d m k initial r.thread r.returned) r from
      reached.invariant (fun _ number => Incremented.start number) fun _ _ _ before meets stepped =>
        Incremented.step before meets stepped
  obtain ⟨log, pending, holders, flights, effects, counter, count⟩ := inc
  have nonePending : pending = [] := by
    refine List.eq_nil_iff_forall_not_mem.mpr fun pair inside => ?_
    have answered := (effects.answered pair.1 pair.2).mp inside
    rw [idle] at answered
    exact notAnswered_none _ answered
  have order := effects.order
  rw [nonePending, List.map_nil, List.append_nil] at order
  refine ⟨?_, log, order, counter.sums⟩
  rw [← total_perm order]
  cases found : nodeAt r.cache d m k with
  | none =>
    obtain ⟨rfl, rfl⟩ := counter.absent found
    rw [valueAt_none found]
    exact congrArg some (add_zero (0 : ν)).symm
  | some x =>
    rw [valueAt_some found, counter.number x found]
    rfl

end Runs

section Example

/-- Two threads of module 1 add 2 and 3 to the key `k`. -/
def bothAdd : List (KvcacheAct Int) :=
  [.call 0 1 (.incr [107] 2 true), .call 1 1 (.incr [107] 3 true), .step 0, .step 1, .step 0,
   .step 1, .step 1, .step 0, .step 0, .step 0]

def addsAndFits (r : KvcacheRun Int) : KvcacheAct Int → Bool
  | .call _ m call => m == 1 && (match call with | .incr k _ alloc => k == [107] && alloc | _ => false)
  | .step _ => decide ((r.cache.dicts 0).count < (r.cache.dicts 0).capacity)

theorem addsAndFits_onlyIncrements (r : KvcacheRun Int) (a : KvcacheAct Int)
    (passes : addsAndFits r a = true) : OnlyIncrements 0 1 [107] r a := by
  cases a with
  | call t m call =>
    cases call with
    | incr k n alloc =>
      simp only [addsAndFits, Bool.and_eq_true, beq_iff_eq] at passes
      obtain ⟨rfl, rfl, rfl⟩ := passes
      exact ⟨rfl, n, rfl⟩
    | set k value alloc => simp [addsAndFits] at passes
    | get k => simp [addsAndFits] at passes
  | step t =>
    simp only [addsAndFits, decide_eq_true_eq] at passes
    exact passes

def raced : KvcacheRun Int :=
  ((incrementers 0 1 [107] 0).execTested addsAndFits unusedRun bothAdd).getD unusedRun

/-- Both threads find no node; one links its own and the other adds to it. -/
theorem no_increment_lost_race : raced.returned.length = 2 ∧
    asNumber (valueAt raced.cache 0 1 [107]) = some (0 + total raced.returned) ∧
      ∃ order, order.Perm raced.returned ∧ PartialSums 0 order := by
  have ran : (incrementers 0 1 [107] 0).execTested addsAndFits unusedRun bothAdd = some raced := rfl
  refine ⟨rfl, no_increment_lost ⟨unusedRun, ?_,
    Machine.execTested_reaches addsAndFits_onlyIncrements ran⟩ fun t => ?_⟩
  · exact ⟨fun x member => absurd member List.not_mem_nil, .inl ⟨rfl, rfl⟩, fun _ => rfl, rfl⟩
  · rcases t with _ | _ | t
    · rfl
    · rfl
    · rfl

end Example

end Ksrc.Guarantees.KvCacheIncrements

import Ksrc.Guarantees.LandlockMerge
import Ksrc.Guarantees.LandlockReferences

/-!
# The heap of rulesets, domains and hierarchy nodes under its owners' references

Source: `landlock/src/ruleset.c`. The use count of a ruleset or a domain is the number of
references its owners hold. Creating, extending, merging, getting and putting keep the
shapes of all of them, the counts, and for each domain a chain of as many nodes as it has
layers.
-/
namespace Ksrc.Guarantees.LandlockOwners

open Library Source LandlockShape LandlockMerge
  LandlockReferences

/-- The domains at a hierarchy node. -/
def domainsAt (rulesets : Heap LandlockRuleset) (x : Nat) : Nat :=
  rulesets.count fun _ r => r.hierarchy == some x

structure HeapOk (held : Nat → Nat) (h : LandlockHeap) : Prop where
  shaped : ∀ a r, h.rulesets.get a = some r → RulesetShape r ∨ DomainShape r
  used : ∀ a r, h.rulesets.get a = some r → r.usage = held a ∧ 1 ≤ held a
  owned : ∀ a, 1 ≤ held a → ∃ r, h.rulesets.get a = some r
  nodes : NodesOk (domainsAt h.rulesets) h.hierarchies
  chains : ∀ a d x, h.rulesets.get a = some d → d.hierarchy = some x →
    Chain h.hierarchies x d.numLayers

/-- What remains is as it was, up to use counts. -/
structure Later (h h' : LandlockHeap) : Prop where
  rulesets : ∀ a r', h'.rulesets.get a = some r' →
    ∃ r, h.rulesets.get a = some r ∧ r' = { r with usage := r'.usage }
  nodes : Kept h.hierarchies h'.hierarchies

variable {held held' : Nat → Nat} {h h' h'' : LandlockHeap} {a : Nat} {r r' : LandlockRuleset}

theorem Later.refl (h : LandlockHeap) : Later h h := ⟨fun _ r here => ⟨r, here, rfl⟩, .refl _⟩

theorem Later.trans (first : Later h h') (second : Later h' h'') : Later h h'' := by
  constructor
  · intro a r'' here
    obtain ⟨r', at', same'⟩ := second.rulesets a r'' here
    obtain ⟨r, isAt, same⟩ := first.rulesets a r' at'
    refine ⟨r, isAt, ?_⟩
    rw [same', same]
  · exact first.nodes.trans second.nodes

theorem HeapOk.congr (ok : HeapOk held h) (same : ∀ a, held' a = held a) : HeapOk held' h := by
  have equal : held' = held := funext same
  rw [equal]
  exact ok

theorem shape_reused (shape : RulesetShape r ∨ DomainShape r) (usage : Nat) :
    RulesetShape { r with usage := usage } ∨ DomainShape { r with usage := usage } := by
  rcases shape with shape | shape
  · exact .inl ⟨⟨shape.ordered, shape.counted, shape.bounded⟩, shape.plain, shape.one_mask,
      shape.rules⟩
  · exact .inr ⟨⟨shape.ordered, shape.counted, shape.bounded⟩, shape.in_hierarchy,
      shape.some_mask, shape.mask_limit, shape.rules⟩

theorem domainsAt_set (here : h.rulesets.get a = some r) (same : r'.hierarchy = r.hierarchy)
    (x : Nat) : domainsAt (h.rulesets.set a r') x = domainsAt h.rulesets x := by
  have counted := Heap.count_set (fun _ (r : LandlockRuleset) => r.hierarchy == some x)
    h.rulesets a r'
  unfold Heap.counts at counted
  rw [here] at counted
  simp only [same] at counted
  unfold domainsAt
  omega

/-- Writing a ruleset or domain anew where it is. -/
theorem HeapOk.write (ok : HeapOk held h) (here : h.rulesets.get a = some r)
    (shape : RulesetShape r' ∨ DomainShape r') (hierarchy : r'.hierarchy = r.hierarchy)
    (layers : r'.numLayers = r.numLayers) (used : r'.usage = held' a ∧ 1 ≤ held' a)
    (others : ∀ b, b ≠ a → held' b = held b) :
    HeapOk held' { h with rulesets := h.rulesets.set a r' } := by
  constructor
  · intro b q at'
    dsimp only at at'
    rcases Heap.set_cases at' with ⟨-, rfl⟩ | ⟨-, at'⟩
    · exact shape
    · exact ok.shaped b q at'
  · intro b q at'
    dsimp only at at'
    rcases Heap.set_cases at' with ⟨isA, rfl⟩ | ⟨other, at'⟩
    · rw [isA]
      exact used
    · rw [others b other]
      exact ok.used b q at'
  · intro b some
    dsimp only
    rw [Heap.get_set]
    split
    · exact ⟨_, rfl⟩
    · rename_i other
      rw [others b other] at some
      exact ok.owned b some
  · exact ok.nodes.congr (domainsAt_set here hierarchy) fun _ => rfl
  · intro b d x at' isNode
    dsimp only at at' ⊢
    rcases Heap.set_cases at' with ⟨-, rfl⟩ | ⟨-, at'⟩
    · rw [layers]
      exact ok.chains a r x here (hierarchy.symm.trans isNode)
    · exact ok.chains b d x at' isNode

theorem later_write (here : h.rulesets.get a = some r) (usage : Nat) :
    Later h { h with rulesets := h.rulesets.set a { r with usage := usage } } := by
  constructor
  · intro b q at'
    dsimp only at at'
    rcases Heap.set_cases at' with ⟨isA, rfl⟩ | ⟨-, at'⟩
    · exact ⟨r, by rw [isA, here], rfl⟩
    · exact ⟨q, at', rfl⟩
  · exact .refl _

/-- `landlock_get_ruleset` for an owner of the ruleset or domain. -/
theorem HeapOk.get (ok : HeapOk held h) (owner : 1 ≤ held a) :
    ∃ h', landlockGetRuleset h (some a) = some h' ∧ HeapOk (plus held a) h' ∧ Later h h' := by
  obtain ⟨r, here⟩ := ok.owned a owner
  have used := ok.used a r here
  refine ⟨_, ?_, ?_, later_write here (r.usage + 1)⟩
  · unfold landlockGetRuleset
    dsimp only
    rw [here]
    rfl
  · refine ok.write here (shape_reused (ok.shaped a r here) _) rfl rfl ?_
      fun b other => plus_other held other
    · rw [plus_same]
      dsimp only
      omega

theorem HeapOk.chain_length (ok : HeapOk held h) (here : h.rulesets.get a = some r) {x : Nat}
    (isNode : r.hierarchy = some x) : r.numLayers ≤ landlockMaxNumLayers := by
  rcases ok.shaped a r here with shape | shape
  · rw [shape.plain] at isNode
    cases isNode
  · exact shape.mask_limit

/-- What the last reference to a ruleset or a domain takes with it. -/
theorem domainsAt_free (here : h.rulesets.get a = some r) (x : Nat) :
    domainsAt h.rulesets x =
      domainsAt (h.rulesets.free a) x + if r.hierarchy = some x then 1 else 0 := by
  have counted := Heap.count_free (fun _ (r : LandlockRuleset) => r.hierarchy == some x)
    h.rulesets a
  unfold Heap.counts at counted
  rw [here] at counted
  simp only [beq_iff_eq] at counted
  exact counted.symm

theorem HeapOk.free (ok : HeapOk (plus held a) h) (here : h.rulesets.get a = some r)
    (last : held a = 0) {hs : Hierarchies}
    (nodes : NodesOk (domainsAt (h.rulesets.free a)) hs) (kept : Kept h.hierarchies hs) :
    HeapOk held { rulesets := h.rulesets.free a, hierarchies := hs } := by
  have remains : ∀ b q, (h.rulesets.free a).get b = some q → b ≠ a ∧ h.rulesets.get b = some q := by
    intro b q at'
    rw [Heap.get_free] at at'
    split at at'
    · cases at'
    · rename_i other
      exact ⟨other, at'⟩
  constructor
  · intro b q at'
    exact ok.shaped b q (remains b q at').2
  · intro b q at'
    obtain ⟨other, old⟩ := remains b q at'
    have used := ok.used b q old
    rw [plus_other held other] at used
    exact used
  · intro b some
    have other : b ≠ a := by
      rintro rfl
      omega
    dsimp only
    rw [Heap.get_free, if_neg other]
    apply ok.owned b
    rw [plus_other held other]
    exact some
  · exact nodes
  · intro b d x at' isNode
    have old := (remains b d at').2
    refine (ok.chains b d x old isNode).frame kept nodes (nodes.live x ?_)
    exact Heap.counts_pos _ at' (beq_iff_eq.mpr isNode)

/-- `landlock_put_ruleset` for an owner of the ruleset or domain. -/
theorem HeapOk.put (ok : HeapOk (plus held a) h) :
    ∃ h', landlockPutRuleset h (some a) = some h' ∧ HeapOk held h' ∧ Later h h' := by
  have owner : 1 ≤ plus held a a := by
    rw [plus_same]
    omega
  obtain ⟨r, here⟩ := ok.owned a owner
  have used := (ok.used a r here).1
  rw [plus_same] at used
  have later : ∀ hs, Kept h.hierarchies hs →
      Later h { rulesets := h.rulesets.free a, hierarchies := hs } := by
    intro hs kept
    constructor
    · intro b q at'
      dsimp only at at'
      rw [Heap.get_free] at at'
      split at at'
      · cases at'
      · exact ⟨q, at', rfl⟩
    · exact kept
  unfold landlockPutRuleset
  dsimp only
  rw [here]
  by_cases last : r.usage = 1
  · dsimp only
    rw [if_pos last]
    unfold freeRuleset
    cases isNode : r.hierarchy with
    | none =>
      refine ⟨_, rfl, ok.free here (by omega) ?_ (.refl _), later _ (.refl _)⟩
      refine ok.nodes.congr (fun x => ?_) fun _ => rfl
      have counted := domainsAt_free here x
      rw [isNode, if_neg (by simp)] at counted
      exact counted.symm
    | some x =>
      have shared : NodesOk (plus (domainsAt (h.rulesets.free a)) x) h.hierarchies := by
        refine ok.nodes.congr (fun y => ?_) fun _ => rfl
        have counted := domainsAt_free here y
        rw [isNode] at counted
        rw [counted]
        unfold plus
        simp only [Option.some.injEq, eq_comm]
      obtain ⟨hs, put, nodes, kept⟩ := putHierarchy_ok shared (ok.chains a r x here isNode)
        (ok.chain_length here isNode)
      rw [put]
      exact ⟨_, rfl, ok.free here (by omega) nodes kept, later _ kept⟩
  · dsimp only
    rw [if_neg last]
    refine ⟨_, rfl, ?_, later_write here (r.usage - 1)⟩
    refine ok.write here (shape_reused (ok.shaped a r here) _) rfl rfl ?_
      fun b other => (plus_other held other).symm
    · dsimp only
      omega

/-- The heap with a new ruleset or domain of one owner, over the hierarchy it is in. -/
theorem HeapOk.add (ok : HeapOk held h) (fresh : h.rulesets.get a = none)
    (shape : RulesetShape r ∨ DomainShape r) (usage : r.usage = 1) {hs : Hierarchies}
    (nodes : NodesOk (domainsAt (h.rulesets.set a r)) hs) (grown : Grown h.hierarchies hs)
    (chain : ∀ x, r.hierarchy = some x → Chain hs x r.numLayers) :
    HeapOk (plus held a) { rulesets := h.rulesets.set a r, hierarchies := hs } := by
  have unowned : held a = 0 := by
    by_contra owner
    obtain ⟨q, here⟩ := ok.owned a (Nat.one_le_iff_ne_zero.mpr owner)
    rw [fresh] at here
    cases here
  constructor
  · intro b q at'
    dsimp only at at'
    rcases Heap.set_cases at' with ⟨-, rfl⟩ | ⟨-, at'⟩
    · exact shape
    · exact ok.shaped b q at'
  · intro b q at'
    dsimp only at at'
    rcases Heap.set_cases at' with ⟨isA, rfl⟩ | ⟨other, at'⟩
    · rw [isA, plus_same]
      omega
    · rw [plus_other held other]
      exact ok.used b q at'
  · intro b some
    dsimp only
    rw [Heap.get_set]
    split
    · exact ⟨_, rfl⟩
    · rename_i other
      rw [plus_other held other] at some
      exact ok.owned b some
  · exact nodes
  · intro b d x at' isNode
    dsimp only at at' ⊢
    rcases Heap.set_cases at' with ⟨-, rfl⟩ | ⟨-, at'⟩
    · exact chain x isNode
    · exact (ok.chains b d x at' isNode).grow grown

/-- A new cell counts at its own node. -/
theorem domainsAt_add (fresh : h.rulesets.get a = none) (x : Nat) :
    domainsAt (h.rulesets.set a r) x =
      domainsAt h.rulesets x + if r.hierarchy = some x then 1 else 0 := by
  have counted := Heap.count_set (fun _ (r : LandlockRuleset) => r.hierarchy == some x)
    h.rulesets a r
  unfold Heap.counts at counted
  rw [fresh] at counted
  simp only [beq_iff_eq] at counted
  exact counted

theorem landlockCreateRuleset_shape {mask : U16} {allocs : List Bool}
    (made : (landlockCreateRuleset mask allocs).1 = .ok r) :
    RulesetShape r ∧ r.usage = 1 ∧ r.fsAccessMasks = [mask] ∧ r.root = .nil := by
  unfold landlockCreateRuleset createRuleset at made
  split at made
  · cases made
  · cases allocated : kzalloc allocs with
    | mk success rest =>
      cases success with
      | false =>
        simp only [allocated] at made
        cases made
      | true =>
        simp only [allocated] at made
        cases made
        refine ⟨⟨⟨List.Pairwise.nil, rfl, Nat.zero_le _⟩, rfl, rfl, ?_⟩, rfl, rfl, rfl⟩
        intro rule member
        cases member

theorem landlockCreateRuleset_error {mask : U16} {allocs : List Bool} {e : Refusal}
    (failed : (landlockCreateRuleset mask allocs).1 = .error e) : ∃ errno, e = .err errno := by
  unfold landlockCreateRuleset createRuleset at failed
  split at failed
  · cases failed
    exact ⟨_, rfl⟩
  · cases allocated : kzalloc allocs with
    | mk success rest =>
      cases success with
      | false =>
        simp only [allocated] at failed
        cases failed
        exact ⟨_, rfl⟩
      | true =>
        simp only [allocated] at failed
        cases failed

/-- A new ruleset and its first owner. -/
theorem HeapOk.create (ok : HeapOk held h) (fresh : h.rulesets.get a = none)
    (shape : RulesetShape r) (usage : r.usage = 1) :
    HeapOk (plus held a) { h with rulesets := h.rulesets.set a r } := by
  refine ok.add fresh (.inl shape) usage ?_ (fun x node here => ⟨node, here, rfl⟩) ?_
  · refine ok.nodes.congr (fun x => ?_) fun _ => rfl
    rw [domainsAt_add fresh, shape.plain, if_neg (by simp), Nat.add_zero]
  · intro x isNode
    rw [shape.plain] at isNode
    cases isNode

/-- An insertion into a ruleset makes a ruleset, or fails without a warning. -/
theorem landlockInsertRule_effect (color : RbInsertColor) (shape : RulesetShape r) (object : Nat)
    (access : U16) (allocs : List Bool) :
    (∃ e, (landlockInsertRule color r (some object) access allocs).1 = .error (.err e)) ∨
      ∃ r', (landlockInsertRule color r (some object) access allocs).1 = .ok r' ∧
        RulesetShape r' ∧ Placed r r' object (combine (layersAt r object) [⟨0, access⟩]) := by
  have unstacked := (rules_iff shape.toTreeShape).mp shape.rules
  have role : ∀ old, layersAt r object = some old → Role old [⟨0, access⟩] := by
    intro old here
    obtain ⟨mask, one⟩ := unstacked object old here
    exact .extend mask access one rfl
  rcases insertRule_effect color allocs shape.toTreeShape role with failed | ⟨r', done, placed⟩
  · exact .inl failed
  · right
    have tree := placed.shape shape.toTreeShape
    refine ⟨r', done, ⟨tree, placed.hierarchy.trans shape.plain, ?_, ?_⟩, placed⟩
    · unfold LandlockRuleset.numLayers
      rw [placed.masks]
      exact shape.one_mask
    · refine (rules_iff tree).mpr fun k layers here => ?_
      rw [placed.stack] at here
      split at here
      · cases here
        cases old : layersAt r object with
        | none => exact ⟨access, rfl⟩
        | some layers =>
          obtain ⟨mask, one⟩ := unstacked object layers old
          rw [one]
          exact ⟨mask ||| access, rfl⟩
      · exact unstacked k layers here

theorem HeapOk.insert (ok : HeapOk held h) (here : h.rulesets.get a = some r)
    (before : RulesetShape r) (shape : RulesetShape r') (usage : r'.usage = r.usage) :
    HeapOk held { h with rulesets := h.rulesets.set a r' } := by
  refine ok.write here (.inl shape) ?_ ?_ ?_ fun _ _ => rfl
  · rw [shape.plain, before.plain]
  · rw [shape.one_mask, before.one_mask]
  · rw [usage]
    exact ok.used a r here

section Merging

variable {hs : Hierarchies} {refs : Nat → Nat} {above : Option Nat} {new : Nat}

/-- The hierarchy with one more node is counted for one more domain. -/
theorem linked_ok (ok : NodesOk refs hs) (fresh : hs.get new = none)
    (live : ∀ x, above = some x → ∃ node, hs.get x = some node) :
    NodesOk (plus refs new) (linked hs above new) ∧ Grown hs (linked hs above new) ∧
      (linked hs above new).get new = some { parent := above, usage := 1 } := by
  have unused : refs new = 0 := by
    by_contra some
    obtain ⟨node, here⟩ := ok.live new (Nat.one_le_iff_ne_zero.mpr some)
    rw [fresh] at here
    cases here
  have apart : ∀ y node, hs.get y = some node → y ≠ new := by
    rintro y node here rfl
    rw [fresh] at here
    cases here
  cases above with
  | none =>
    refine ⟨NodesOk.adopt none ok fresh unused, fun y node here => ?_,
      Heap.get_set_same _ _ _⟩
    exact ⟨node, (Heap.get_set_other _ _ (apart y node here)).trans here, rfl⟩
  | some x =>
    obtain ⟨node, here⟩ := live x rfl
    have isLinked : linked hs (some x) new =
        (hs.set x { node with usage := node.usage + 1 }).set new
          { parent := some x, usage := 1 } := by
      unfold linked
      simp only [here]
    rw [isLinked]
    have fresh' : (hs.set x { node with usage := node.usage + 1 }).get new = none := by
      rw [Heap.get_set_other _ _ (apart x node here).symm]
      exact fresh
    refine ⟨NodesOk.adopt (some x) (ok.get here) fresh' unused, ?_,
      Heap.get_set_same _ _ _⟩
    intro y node' here'
    rw [Heap.get_set_other _ _ (apart y node' here'), Heap.get_set]
    split
    · rename_i isX
      rw [isX, here] at here'
      cases here'
      exact ⟨_, rfl, rfl⟩
    · exact ⟨node', here', rfl⟩

end Merging

/-- The owners a merge needs: of the parent, if there is one, and of the ruleset. -/
structure MergeReady (held : Nat → Nat) (h : LandlockHeap) (parent : Option Nat)
    (ruleset newDom newHierarchy : Nat) : Prop where
  parentOwner : ∀ p, parent = some p → 1 ≤ held p
  parentShape : ∀ p d, parent = some p → h.rulesets.get p = some d → DomainShape d
  rulesetOwner : 1 ≤ held ruleset
  rulesetShape : ∀ r, h.rulesets.get ruleset = some r → RulesetShape r
  freshDom : h.rulesets.get newDom = none
  freshHierarchy : h.hierarchies.get newHierarchy = none

/-- The domain a merge reads at the address of the parent. -/
def parentAt (h : LandlockHeap) (parent : Option Nat) : Option LandlockRuleset :=
  parent.bind h.rulesets.get

/-- The answer and the heap behind a merge. -/
def afterMerge (h : LandlockHeap) (newDom : Nat) :
    Except Refusal LandlockRuleset × Hierarchies → Except Refusal Nat × LandlockHeap
  | (.error e, hierarchies) => (.error e, { h with hierarchies })
  | (.ok dom, hierarchies) =>
    (.ok newDom, { rulesets := h.rulesets.set newDom dom, hierarchies })

theorem landlockMergeRuleset_eq {color : RbInsertColor} {parent : Option Nat}
    {ruleset newDom newHierarchy : Nat} {allocs : List Bool} (ok : HeapOk held h)
    (ready : MergeReady held h parent ruleset newDom newHierarchy)
    (here : h.rulesets.get ruleset = some r) :
    landlockMergeRuleset color h parent (some ruleset) newDom newHierarchy allocs =
      (mergeDomain color h.hierarchies (parentAt h parent) r newHierarchy allocs).map
        (afterMerge h newDom) := by
  have shape := ready.rulesetShape r here
  have other : parent ≠ some ruleset := by
    rintro rfl
    have domain := ready.parentShape ruleset r rfl here
    exact domain.in_hierarchy shape.plain
  unfold landlockMergeRuleset
  simp only [if_neg other, here]
  cases parent with
  | none => rfl
  | some p =>
    obtain ⟨d, isDom⟩ := ok.owned p (ready.parentOwner p rfl)
    simp only [parentAt, Option.bind_some, isDom]
    rfl

theorem mergeable (ok : HeapOk held h) {parent : Option Nat} {ruleset newDom newHierarchy : Nat}
    (ready : MergeReady held h parent ruleset newDom newHierarchy)
    (here : h.rulesets.get ruleset = some r) :
    Mergeable h.hierarchies (parentAt h parent) r newHierarchy := by
  constructor
  · intro d isDom
    obtain ⟨p, isParent, at'⟩ := Option.bind_eq_some_iff.mp isDom
    exact ready.parentShape p d isParent at'
  · exact ready.rulesetShape r here
  · exact ready.freshHierarchy
  · intro x isNode
    obtain ⟨d, isDom, node⟩ := Option.bind_eq_some_iff.mp isNode
    obtain ⟨p, isParent, at'⟩ := Option.bind_eq_some_iff.mp isDom
    obtain ⟨on, live⟩ := (ok.chains p d x at' node).live
    refine ⟨on, live, ?_⟩
    have count : 1 ≤ domainsAt h.rulesets x :=
      Heap.counts_pos _ at' (beq_iff_eq.mpr node)
    have usage := ok.nodes.usage x on live
    omega

/-- What `landlock_merge_ruleset` does: nothing that can be read, or a new domain. -/
inductive MergeEffect (held : Nat → Nat) (h : LandlockHeap) (parent : Option Nat)
    (r : LandlockRuleset) (newDom newHierarchy : Nat) :
    Except Refusal Nat → LandlockHeap → Prop
  | failed (e : Errno) (hs : Hierarchies) (reads : ∀ x, hs.get x = h.hierarchies.get x)
      (ok : HeapOk held { h with hierarchies := hs }) :
      MergeEffect held h parent r newDom newHierarchy (.error (.err e)) { h with hierarchies := hs }
  | made (dom : LandlockRuleset) (hs : Hierarchies)
      (merged : Merged (parentAt h parent) r dom newHierarchy)
      (grown : Grown h.hierarchies hs)
      (reads : ∀ x, hs.get x = (linked h.hierarchies (hierarchyOf (parentAt h parent))
        newHierarchy).get x)
      (ok : HeapOk (plus held newDom) { rulesets := h.rulesets.set newDom dom, hierarchies := hs }) :
      MergeEffect held h parent r newDom newHierarchy (.ok newDom)
        { rulesets := h.rulesets.set newDom dom, hierarchies := hs }

theorem landlockMergeRuleset_effect (color : RbInsertColor) {parent : Option Nat}
    {ruleset newDom newHierarchy : Nat} (allocs : List Bool) (ok : HeapOk held h)
    (ready : MergeReady held h parent ruleset newDom newHierarchy)
    (here : h.rulesets.get ruleset = some r) :
    ∃ result h', landlockMergeRuleset color h parent (some ruleset) newDom newHierarchy allocs =
      some (result, h') ∧ MergeEffect held h parent r newDom newHierarchy result h' := by
  rw [landlockMergeRuleset_eq ok ready here]
  have can := mergeable ok ready here
  obtain ⟨result, hs, done, outcome⟩ := mergeDomain_effect color allocs can
  rw [done]
  rcases outcome with ⟨⟨e, rfl⟩, reads⟩ | ⟨dom, rfl, merged, reads⟩
  · refine ⟨_, _, rfl, .failed e hs reads ?_⟩
    have kept : Grown h.hierarchies hs := fun x node here =>
      ⟨node, (reads x).trans here, rfl⟩
    exact ⟨ok.shaped, ok.used, ok.owned, ok.nodes.congr (fun _ => rfl) reads,
      fun a d x at' isNode => (ok.chains a d x at' isNode).grow kept⟩
  · have live : ∀ x, hierarchyOf (parentAt h parent) = some x →
        ∃ node, h.hierarchies.get x = some node := by
      intro x isNode
      obtain ⟨node, here, _⟩ := can.live x isNode
      exact ⟨node, here⟩
    obtain ⟨nodes, grows, atNew⟩ := linked_ok ok.nodes ready.freshHierarchy live
    have grown : Grown h.hierarchies hs := by
      intro x node here
      obtain ⟨node', here', same⟩ := grows x node here
      exact ⟨node', (reads x).trans here', same⟩
    refine ⟨_, _, rfl, .made dom hs merged grown reads ?_⟩
    refine ok.add ready.freshDom (.inr merged.shape) merged.usage ?_ grown ?_
    · refine nodes.congr (fun x => ?_) reads
      rw [domainsAt_add ready.freshDom, merged.hierarchy]
      unfold plus
      simp only [Option.some.injEq, eq_comm]
    · intro x isNode
      rw [merged.hierarchy] at isNode
      cases isNode
      have layers : dom.numLayers = (masksOf (parentAt h parent)).length + 1 := by
        have one := (ready.rulesetShape r here).one_mask
        unfold LandlockRuleset.numLayers at one ⊢
        rw [merged.masks, List.length_append, one]
      have here' := (reads newHierarchy).trans atNew
      rw [layers]
      cases isParent : parentAt h parent with
      | none =>
        rw [isParent] at here'
        exact .root newHierarchy _ here' rfl
      | some d =>
        obtain ⟨p, isAddr, at'⟩ := Option.bind_eq_some_iff.mp isParent
        have shape := ready.parentShape p d isAddr at'
        obtain ⟨x, isNode⟩ := Option.ne_none_iff_exists'.mp shape.in_hierarchy
        have onTop : hierarchyOf (some d) = some x := isNode
        rw [isParent, onTop] at here'
        exact .above newHierarchy x d.numLayers _ here' rfl
          ((ok.chains p d x at' isNode).grow grown)

end Ksrc.Guarantees.LandlockOwners

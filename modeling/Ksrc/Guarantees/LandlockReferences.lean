import Ksrc.Source.LandlockRuleset

/-!
# The references between Landlock hierarchy nodes

Source: `landlock/src/ruleset.c` (`get_hierarchy`, `put_hierarchy`). The use count of a node
is the number of domains at it and of nodes below it. Dropping a reference keeps this, frees
only nodes that nothing refers to and leaves the parents of the others.
-/
namespace Ksrc.Guarantees.LandlockReferences

open Library Source

/-- One more reference to an address. -/
def plus (refs : Nat → Nat) (a : Nat) : Nat → Nat := fun x => refs x + if x = a then 1 else 0

@[simp] theorem plus_same (refs : Nat → Nat) (a : Nat) : plus refs a a = refs a + 1 := by
  simp [plus]

theorem plus_other (refs : Nat → Nat) {a x : Nat} (other : x ≠ a) : plus refs a x = refs x := by
  simp [plus, other]

/-- The nodes below an address. -/
def childrenOf (hs : Hierarchies) (x : Nat) : Nat := hs.count fun _ node => node.parent == some x

/-- The counts of hierarchy nodes, for the references from outside. -/
structure NodesOk (refs : Nat → Nat) (hs : Hierarchies) : Prop where
  usage : ∀ x node, hs.get x = some node → node.usage = refs x + childrenOf hs x
  live : ∀ x, 1 ≤ refs x → ∃ node, hs.get x = some node
  parents : ∀ x node p, hs.get x = some node → node.parent = some p → ∃ above, hs.get p = some above

/-- The chain of nodes from an address to one without a parent. -/
inductive Chain (hs : Hierarchies) : Nat → Nat → Prop
  | root (x : Nat) (node : LandlockHierarchy) (here : hs.get x = some node)
      (top : node.parent = none) : Chain hs x 1
  | above (x p n : Nat) (node : LandlockHierarchy) (here : hs.get x = some node)
      (parent : node.parent = some p) (rest : Chain hs p n) : Chain hs x (n + 1)

/-- What nodes remain kept their parents. -/
def Kept (hs hs' : Hierarchies) : Prop :=
  ∀ x node', hs'.get x = some node' → ∃ node, hs.get x = some node ∧ node'.parent = node.parent

variable {refs : Nat → Nat} {hs hs' hs'' : Hierarchies} {x n : Nat} {node : LandlockHierarchy}

theorem Kept.refl (hs : Hierarchies) : Kept hs hs := fun _ node here => ⟨node, here, rfl⟩

theorem Kept.trans (first : Kept hs hs') (second : Kept hs' hs'') : Kept hs hs'' := by
  intro x node'' here
  obtain ⟨node', at', same'⟩ := second x node'' here
  obtain ⟨node, isNode, same⟩ := first x node' at'
  exact ⟨node, isNode, same'.trans same⟩

theorem childrenOf_congr (same : ∀ a, hs'.get a = hs.get a) (x : Nat) :
    childrenOf hs' x = childrenOf hs x :=
  Heap.count_congr _ same

theorem NodesOk.congr {refs' : Nat → Nat} (ok : NodesOk refs hs)
    (sameRefs : ∀ x, refs' x = refs x) (same : ∀ a, hs'.get a = hs.get a) : NodesOk refs' hs' := by
  constructor
  · intro x node here
    rw [same] at here
    rw [sameRefs, childrenOf_congr same, ok.usage x node here]
  · intro x some
    rw [sameRefs] at some
    rw [same]
    exact ok.live x some
  · intro x node p here parent
    rw [same] at here
    rw [same]
    exact ok.parents x node p here parent

theorem Chain.live (chain : Chain hs x n) : ∃ node, hs.get x = some node := by
  cases chain with
  | root _ node here top => exact ⟨node, here⟩
  | above _ p n node here parent rest => exact ⟨node, here⟩

/-- The chain from a node that remains is the old one. -/
theorem Chain.frame (chain : Chain hs x n) (kept : Kept hs hs') (ok : NodesOk refs hs')
    (live : ∃ node', hs'.get x = some node') : Chain hs' x n := by
  induction chain with
  | root x node here top =>
    obtain ⟨node', here'⟩ := live
    obtain ⟨old, isOld, same⟩ := kept x node' here'
    rw [here] at isOld
    cases isOld
    exact .root x node' here' (same.trans top)
  | above x p n node here parent rest ih =>
    obtain ⟨node', here'⟩ := live
    obtain ⟨old, isOld, same⟩ := kept x node' here'
    rw [here] at isOld
    cases isOld
    have parent' := same.trans parent
    exact .above x p n node' here' parent' (ih (ok.parents x node' p here' parent'))

/-- Writing a node anew with its parent does not change who is below whom. -/
theorem childrenOf_set (here : hs.get x = some node) {node' : LandlockHierarchy}
    (same : node'.parent = node.parent) (y : Nat) :
    childrenOf (hs.set x node') y = childrenOf hs y := by
  have counted := Heap.count_set (fun _ (node : LandlockHierarchy) => node.parent == some y) hs x node'
  unfold Heap.counts at counted
  rw [here] at counted
  simp only [same] at counted
  unfold childrenOf
  omega

theorem kept_set (here : hs.get x = some node) {node' : LandlockHierarchy}
    (same : node'.parent = node.parent) : Kept hs (hs.set x node') := by
  intro y new at'
  rcases Heap.set_cases at' with ⟨isX, rfl⟩ | ⟨-, at'⟩
  · exact ⟨node, by rw [isX, here], same⟩
  · exact ⟨new, at', rfl⟩

theorem kept_free (hs : Hierarchies) (x : Nat) : Kept hs (hs.free x) := by
  intro y node here
  rw [Heap.get_free] at here
  split at here
  · cases here
  · exact ⟨node, here, rfl⟩

/-- One more reference, counted at the node. -/
theorem NodesOk.get (ok : NodesOk refs hs) (here : hs.get x = some node) :
    NodesOk (plus refs x) (hs.set x { node with usage := node.usage + 1 }) := by
  constructor
  · intro y node' at'
    rw [childrenOf_set here (by rfl)]
    rcases Heap.set_cases at' with ⟨isX, rfl⟩ | ⟨other, at'⟩
    · rw [isX, plus_same]
      have usage := ok.usage x node here
      dsimp only
      omega
    · rw [plus_other refs other]
      exact ok.usage y node' at'
  · intro y some
    rw [Heap.get_set]
    split
    · exact ⟨_, rfl⟩
    · rename_i other
      rw [plus_other refs other] at some
      exact ok.live y some
  · intro y node' p at' parent
    have above : ∃ above, hs.get p = some above := by
      rcases Heap.set_cases at' with ⟨-, rfl⟩ | ⟨-, at'⟩
      · exact ok.parents x node p here parent
      · exact ok.parents y node' p at' parent
    rw [Heap.get_set]
    split
    · exact ⟨_, rfl⟩
    · exact above

/-- One reference less, counted at the node. -/
theorem NodesOk.drop (ok : NodesOk (plus refs x) hs) (here : hs.get x = some node) :
    NodesOk refs (hs.set x { node with usage := node.usage - 1 }) := by
  have usageX := ok.usage x node here
  rw [plus_same] at usageX
  constructor
  · intro y node' at'
    rw [childrenOf_set here (by rfl)]
    rcases Heap.set_cases at' with ⟨isX, rfl⟩ | ⟨other, at'⟩
    · rw [isX]
      dsimp only
      omega
    · have usage := ok.usage y node' at'
      rw [plus_other refs other] at usage
      exact usage
  · intro y some
    rw [Heap.get_set]
    split
    · exact ⟨_, rfl⟩
    · rename_i other
      apply ok.live y
      rw [plus_other refs other]
      exact some
  · intro y node' p at' parent
    have above : ∃ above, hs.get p = some above := by
      rcases Heap.set_cases at' with ⟨-, rfl⟩ | ⟨-, at'⟩
      · exact ok.parents x node p here parent
      · exact ok.parents y node' p at' parent
    rw [Heap.get_set]
    split
    · exact ⟨_, rfl⟩
    · exact above

/-- The references that remain when a node is freed: its own to its parent. -/
def released (refs : Nat → Nat) (above : Option Nat) : Nat → Nat :=
  match above with
  | some p => plus refs p
  | none => refs

/-- The last reference frees the node, and what it held of its parent is left over. -/
theorem NodesOk.free (ok : NodesOk (plus refs x) hs) (here : hs.get x = some node)
    (last : node.usage = 1) : NodesOk (released refs node.parent) (hs.free x) := by
  have usageX := ok.usage x node here
  rw [plus_same] at usageX
  have noRefs : refs x = 0 := by omega
  have noChildren : childrenOf hs x = 0 := by omega
  have below : ∀ y node', hs.get y = some node' → node'.parent ≠ some x := by
    intro y node' at' parent
    have never := (Heap.count_eq_zero _).mp noChildren y node' at'
    simp only [parent, beq_self_eq_true] at never
    cases never
  have counted : ∀ y, childrenOf (hs.free x) y + (if node.parent = some y then 1 else 0) =
      childrenOf hs y := by
    intro y
    have count := Heap.count_free (fun _ (node : LandlockHierarchy) => node.parent == some y) hs x
    unfold Heap.counts at count
    rw [here] at count
    simp only [beq_iff_eq] at count
    exact count
  have shift : ∀ y, released refs node.parent y + childrenOf (hs.free x) y =
      refs y + childrenOf hs y := by
    intro y
    have count := counted y
    unfold released
    cases isParent : node.parent with
    | none =>
      simp only [isParent, reduceCtorEq, if_false] at count
      dsimp only
      omega
    | some p =>
      unfold plus
      simp only [isParent, Option.some.injEq] at count
      by_cases same : p = y
      · simp only [same, if_true] at count ⊢
        omega
      · simp only [same, Ne.symm same, if_false] at count ⊢
        omega
  constructor
  · intro y node' at'
    rw [Heap.get_free] at at'
    split at at'
    · cases at'
    · rename_i other
      rw [shift, ok.usage y node' at', plus_other refs other]
  · intro y some
    have other : y ≠ x := by
      rintro rfl
      unfold released at some
      cases isParent : node.parent with
      | none =>
        rw [isParent] at some
        dsimp only at some
        omega
      | some p =>
        rw [isParent] at some
        dsimp only at some
        by_cases same : y = p
        · exact below y node here (same ▸ isParent)
        · rw [plus_other refs same] at some
          omega
    rw [Heap.get_free, if_neg other]
    by_cases isParent : node.parent = Option.some y
    · exact ok.parents x node y here isParent
    · apply ok.live y
      rw [plus_other refs other]
      unfold released at some
      cases isAbove : node.parent with
      | none =>
        rw [isAbove] at some
        exact some
      | some p =>
        rw [isAbove] at some
        dsimp only at some
        rw [plus_other] at some
        · exact some
        · rintro rfl
          exact isParent isAbove
  · intro y node' p at' parent
    rw [Heap.get_free] at at'
    split at at'
    · cases at'
    · obtain ⟨above, atP⟩ := ok.parents y node' p at' parent
      have other : p ≠ x := fun same => below y node' at' (same ▸ parent)
      rw [Heap.get_free, if_neg other]
      exact ⟨above, atP⟩

/-- All nodes are still there, under the same parents. -/
def Grown (hs hs' : Hierarchies) : Prop :=
  ∀ x node, hs.get x = some node → ∃ node', hs'.get x = some node' ∧ node'.parent = node.parent

theorem Chain.grow (chain : Chain hs x n) (grown : Grown hs hs') : Chain hs' x n := by
  induction chain with
  | root x node here top =>
    obtain ⟨node', here', same⟩ := grown x node here
    exact .root x node' here' (same.trans top)
  | above x p n node here parent rest ih =>
    obtain ⟨node', here', same⟩ := grown x node here
    exact .above x p n node' here' (same.trans parent) ih

/-- A new node turns the reference its parent was given into that of a child. -/
theorem NodesOk.adopt (above : Option Nat) {new : Nat} (ok : NodesOk (released refs above) hs)
    (fresh : hs.get new = none) (unused : refs new = 0) :
    NodesOk (plus refs new) (hs.set new { parent := above, usage := 1 }) := by
  have liveAbove : ∀ p, above = some p → ∃ node, hs.get p = some node := by
    rintro p rfl
    apply ok.live p
    change 1 ≤ plus refs p p
    rw [plus_same]
    omega
  have noChildren : childrenOf hs new = 0 := by
    apply (Heap.count_eq_zero _).mpr
    intro y node here
    apply beq_eq_false_iff_ne.mpr
    intro parent
    obtain ⟨gone, here'⟩ := ok.parents y node new here parent
    rw [fresh] at here'
    cases here'
  have counted : ∀ y, childrenOf (hs.set new { parent := above, usage := 1 }) y =
      childrenOf hs y + if above = some y then 1 else 0 := by
    intro y
    have count := Heap.count_set (fun _ (node : LandlockHierarchy) => node.parent == some y) hs new
      { parent := above, usage := 1 }
    unfold Heap.counts at count
    rw [fresh] at count
    simp only [beq_iff_eq] at count
    exact count
  have shift : ∀ y, released refs above y = refs y + if above = some y then 1 else 0 := by
    intro y
    cases above with
    | none => simp only [released, reduceCtorEq, if_false, Nat.add_zero]
    | some p => simp only [released, plus, Option.some.injEq, eq_comm]
  constructor
  · intro y node here
    rw [counted]
    rcases Heap.set_cases here with ⟨isNew, rfl⟩ | ⟨other, here⟩
    · have other : above ≠ some new := by
        intro same
        obtain ⟨node, here⟩ := liveAbove new same
        rw [fresh] at here
        cases here
      rw [isNew, plus_same, unused, noChildren, if_neg other]
    · have usage := ok.usage y node here
      rw [shift] at usage
      rw [plus_other refs other, usage]
      omega
  · intro y some
    rw [Heap.get_set]
    split
    · exact ⟨_, rfl⟩
    · rename_i other
      rw [plus_other refs other] at some
      apply ok.live y
      rw [shift]
      omega
  · intro y node p here parent
    rw [Heap.get_set]
    split
    · exact ⟨_, rfl⟩
    · rcases Heap.set_cases here with ⟨-, rfl⟩ | ⟨-, here⟩
      · exact liveAbove p parent
      · exact ok.parents y node p here parent

/-- Dropping a reference at the end of a chain no longer than the turns. -/
theorem putHierarchyFrom_ok (turns : Nat) (ok : NodesOk (plus refs x) hs) (chain : Chain hs x n)
    (short : n ≤ turns) :
    ∃ hs', putHierarchyFrom turns hs (some x) = some hs' ∧ NodesOk refs hs' ∧ Kept hs hs' := by
  induction turns generalizing hs x n with
  | zero =>
    exfalso
    cases chain <;> omega
  | succ turns ih =>
    obtain ⟨node, here⟩ := chain.live
    unfold putHierarchyFrom
    simp only [here]
    by_cases last : node.usage = 1
    · rw [if_pos last]
      have freed := ok.free here last
      have kept := kept_free hs x
      cases isParent : node.parent with
      | none =>
        rw [isParent] at freed
        refine ⟨hs.free x, ?_, freed, kept⟩
        cases turns <;> rfl
      | some p =>
        rw [isParent] at freed
        have rest : Chain hs p (n - 1) := by
          cases chain with
          | root _ node' here' top =>
            rw [here] at here'
            cases here'
            rw [isParent] at top
            cases top
          | above _ p' n' node' here' parent rest =>
            rw [here] at here'
            cases here'
            rw [isParent] at parent
            cases parent
            exact rest
        have live : ∃ node', (hs.free x).get p = some node' := by
          apply freed.live p
          change 1 ≤ plus refs p p
          rw [plus_same]
          omega
        obtain ⟨hs', put, ok', kept'⟩ := ih freed (rest.frame kept freed live) (by omega)
        exact ⟨hs', put, ok', kept.trans kept'⟩
    · rw [if_neg last]
      exact ⟨_, rfl, ok.drop here, kept_set here rfl⟩

theorem putHierarchy_ok (ok : NodesOk (plus refs x) hs) (chain : Chain hs x n)
    (short : n ≤ landlockMaxNumLayers) :
    ∃ hs', putHierarchy hs (some x) = some hs' ∧ NodesOk refs hs' ∧ Kept hs hs' :=
  putHierarchyFrom_ok landlockMaxNumLayers ok chain short

end Ksrc.Guarantees.LandlockReferences

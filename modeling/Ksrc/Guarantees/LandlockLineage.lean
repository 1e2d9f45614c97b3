import Ksrc.Guarantees.LandlockIntersection
import Ksrc.Guarantees.LandlockSystem

/-!
# The tree of domains and ptrace

Source: `landlock/src/ptrace.c`, `cred.c`. Every domain a task makes is written down with the
domain the task had before. Nodes of hierarchies are labelled with what was written down, so
that the walk of `domain_scope_le` follows the record.
-/
namespace Ksrc.Guarantees.LandlockLineage

open Library Source LandlockShape LandlockMerge
  LandlockReferences LandlockOwners
  LandlockMasks LandlockPathAccess
  LandlockIntersection LandlockSystem

/-- A domain as it was made, and the one it was made on. -/
structure Birth where
  domain : LandlockRuleset
  above : Option Nat

/-- The system with all domains that were ever made, and which of them is the one of a task. -/
structure Tracked where
  system : LandlockSystem
  births : List Birth
  origin : Nat → Option Nat

/-- What an action adds to the record. -/
def Tracked.record (t : Tracked) (s' : LandlockSystem) :
    LandlockAct → Except Refusal Nat → Tracked
  | .restrictSelf task _ _ _ _ _, .ok dom =>
    match s'.heap.rulesets.get dom with
    | none => { t with system := s' }
    | some d =>
      { system := s'
        births := t.births ++ [{ domain := d, above := t.origin task }]
        origin := Function.update t.origin task (some t.births.length) }
  | .fork task child, .ok _ =>
    { t with system := s', origin := Function.update t.origin child (t.origin task) }
  | _, _ => { t with system := s' }

/-- Runs of tasks, with the record. -/
def lineages (color : RbInsertColor) : Machine Tracked LandlockAct where
  start t := AtBoot t.system ∧ t.births = [] ∧ ∀ task, t.origin task = none
  step t act :=
    if Enabled t.system act then
      (act.run color t.system).map fun (result, s') => t.record s' act result
    else none

/-- The domain of the first number was made on the one of the second. -/
def MadeOn (births : List Birth) (i j : Nat) : Prop :=
  ∃ b, births[i]? = some b ∧ b.above = some j

/-- The domain of the first number is the one of the second or was derived from it. -/
def DerivedFrom (births : List Birth) : Nat → Nat → Prop := Relation.ReflTransGen (MadeOn births)

variable {h h' : LandlockHeap} {births : List Birth} {label : Nat → Nat} {x y n : Nat}

/-- Nodes carry the numbers of what was written down. -/
structure Labelled (h : LandlockHeap) (births : List Birth) (label : Nat → Nat) : Prop where
  once : ∀ x y node node', h.hierarchies.get x = some node → h.hierarchies.get y = some node' →
    label x = label y → x = y
  parents : ∀ x node, h.hierarchies.get x = some node →
    ∃ b, births[label x]? = some b ∧ b.above = node.parent.map label
  content : ∀ a d x, h.rulesets.get a = some d → d.hierarchy = some x →
    ∃ b, births[label x]? = some b ∧ d = { b.domain with usage := d.usage }

theorem Labelled.kept (labelled : Labelled h births label) (kept : DomainsKept h h') :
    Labelled h' births label := by
  constructor
  · intro x y node node' atX atY same
    obtain ⟨old, isOld, -⟩ := kept.nodes x node atX
    obtain ⟨old', isOld', -⟩ := kept.nodes y node' atY
    exact labelled.once x y old old' isOld isOld' same
  · intro x node here
    obtain ⟨old, isOld, same⟩ := kept.nodes x node here
    rw [same]
    exact labelled.parents x old isOld
  · intro a d x here isNode
    obtain ⟨old, isOld, same⟩ := kept.domains a d x here isNode
    have isNode' : old.hierarchy = some x := by
      rw [same] at isNode
      exact isNode
    obtain ⟨b, isBirth, equal⟩ := labelled.content a old x isOld isNode'
    refine ⟨b, isBirth, ?_⟩
    rw [same, equal]

section Scope

/-- The only way up from a node is the one of its parent. -/
theorem derived_parent (labelled : Labelled h births label) {node : LandlockHierarchy} {p : Nat}
    (here : h.hierarchies.get x = some node) (parent : node.parent = some p) {j : Nat} :
    DerivedFrom births (label x) j ↔ label x = j ∨ DerivedFrom births (label p) j := by
  obtain ⟨b, isBirth, above⟩ := labelled.parents x node here
  rw [parent, Option.map_some] at above
  constructor
  · intro derived
    rcases Relation.ReflTransGen.cases_head derived with same | ⟨k, ⟨b', isBirth', above'⟩, rest⟩
    · exact .inl same
    · rw [isBirth] at isBirth'
      cases isBirth'
      rw [above] at above'
      cases above'
      exact .inr rest
  · intro either
    rcases either with same | rest
    · rw [same]
      exact Relation.ReflTransGen.refl
    · exact Relation.ReflTransGen.head ⟨b, isBirth, above⟩ rest

theorem derived_root (labelled : Labelled h births label) {node : LandlockHierarchy}
    (here : h.hierarchies.get x = some node) (top : node.parent = none) {j : Nat} :
    DerivedFrom births (label x) j ↔ label x = j := by
  obtain ⟨b, isBirth, above⟩ := labelled.parents x node here
  rw [top, Option.map_none] at above
  constructor
  · intro derived
    rcases Relation.ReflTransGen.cases_head derived with same | ⟨k, ⟨b', isBirth', above'⟩, rest⟩
    · exact same
    · rw [isBirth] at isBirth'
      cases isBirth'
      rw [above] at above'
      cases above'
  · intro same
    rw [same]
    exact Relation.ReflTransGen.refl

/-- The walk answers whether the record leads from one node to the other. By induction on the
chain of nodes, with as many turns as the chain has. -/
theorem scopeWalk_derived (labelled : Labelled h births label) {target : LandlockHierarchy}
    (isTarget : h.hierarchies.get y = some target) {turns : Nat}
    (chain : Chain h.hierarchies x n) (enough : n ≤ turns) :
    ∃ answer, scopeWalk h.hierarchies (some y) turns (some x) = some answer ∧
      (answer = true ↔ DerivedFrom births (label x) (label y)) := by
  induction chain generalizing turns with
  | root x node here top =>
    obtain ⟨turns, rfl⟩ : ∃ k, turns = k + 1 := ⟨turns - 1, by omega⟩
    rw [derived_root labelled here top]
    unfold scopeWalk
    by_cases same : x = y
    · rw [if_pos (congrArg some same), same]
      exact ⟨true, rfl, by simp only⟩
    · rw [if_neg (by rwa [Option.some.injEq])]
      simp only [here, top]
      unfold scopeWalk
      refine ⟨false, rfl, ?_⟩
      have apart : label x ≠ label y := fun equal =>
        same (labelled.once x y node target here isTarget equal)
      simp only [Bool.false_eq_true, apart]
  | above x p n node here parent rest ih =>
    obtain ⟨turns, rfl⟩ : ∃ k, turns = k + 1 := ⟨turns - 1, by omega⟩
    rw [derived_parent labelled here parent]
    unfold scopeWalk
    by_cases same : x = y
    · rw [if_pos (congrArg some same), same]
      exact ⟨true, rfl, by simp only [true_or]⟩
    · rw [if_neg (by rwa [Option.some.injEq])]
      simp only [here, parent]
      have shorter : n ≤ turns := by omega
      obtain ⟨answer, walked, means⟩ := ih shorter
      refine ⟨answer, walked, ?_⟩
      have apart : label x ≠ label y := fun equal =>
        same (labelled.once x y node target here isTarget equal)
      rw [means]
      simp only [apart, false_or]

end Scope

section Meaning

/-- What a domain permits, the one it was made on permits. -/
structure BirthsOk (births : List Birth) : Prop where
  shaped : ∀ b ∈ births, DomainShape b.domain
  weaker : ∀ (i : Nat) (b : Birth) (k : Nat), births[i]? = some b → b.above = some k →
    ∃ b', births[k]? = some b' ∧ ∀ vfs path request,
      Permits vfs b.domain path request → Permits vfs b'.domain path request

theorem derived_permits (ok : BirthsOk births) {i j : Nat} (derived : DerivedFrom births i j)
    {b : Birth} (here : births[i]? = some b) :
    ∃ b', births[j]? = some b' ∧ ∀ vfs path request, Permits vfs b.domain path request →
      Permits vfs b'.domain path request := by
  induction derived with
  | refl => exact ⟨b, here, fun _ _ _ permits => permits⟩
  | tail _ last ih =>
    obtain ⟨b', here', lower⟩ := ih
    obtain ⟨mid, isMid, above⟩ := last
    rw [here'] at isMid
    cases isMid
    obtain ⟨b'', here'', lower'⟩ := ok.weaker _ b' _ here' above
    exact ⟨b'', here'', fun vfs path request permits =>
      lower' vfs path request (lower vfs path request permits)⟩

/-- What a merged domain permits, its parent permits. -/
theorem merged_permits_parent {parent : Option LandlockRuleset} {ruleset dom p : LandlockRuleset}
    {newHierarchy : Nat} (merged : Merged parent ruleset dom newHierarchy)
    (shape : ∀ p, parent = some p → DomainShape p) (plain : RulesetShape ruleset)
    (isParent : parent = some p) {vfs : Vfs} {path : VfsPath} {request : U16}
    (permits : Permits vfs dom path request) : Permits vfs p path request := by
  unfold Permits at permits ⊢
  rw [merged_layers vfs path request merged shape plain] at permits
  exact permits.imp_right fun all => all.1 p isParent

theorem birthsOk_append (ok : BirthsOk births) {b : Birth} (shape : DomainShape b.domain)
    (weaker : ∀ k, b.above = some k → ∃ b', births[k]? = some b' ∧ ∀ vfs path request,
      Permits vfs b.domain path request → Permits vfs b'.domain path request) :
    BirthsOk (births ++ [b]) := by
  have lift : ∀ (k : Nat) (b' : Birth), births[k]? = some b' → (births ++ [b])[k]? = some b' := by
    intro k b' here
    rw [List.getElem?_append_left (List.getElem?_eq_some_iff.mp here).1]
    exact here
  constructor
  · intro c member
    rcases List.mem_append.mp member with old | new
    · exact ok.shaped c old
    · rw [List.mem_singleton.mp new]
      exact shape
  · intro i c k here above
    rcases Nat.lt_or_ge i births.length with inside | outside
    · rw [List.getElem?_append_left inside] at here
      obtain ⟨b', isBirth, lower⟩ := ok.weaker i c k here above
      exact ⟨b', lift k b' isBirth, lower⟩
    · rw [List.getElem?_append_right outside] at here
      have isNew := List.mem_of_getElem? here
      rw [List.mem_singleton.mp isNew] at above ⊢
      obtain ⟨b', isBirth, lower⟩ := weaker k above
      exact ⟨b', lift k b' isBirth, lower⟩

end Meaning

/-- The number of a task is the label of the node of its domain. -/
def OriginsOk (s : LandlockSystem) (origin : Nat → Option Nat) (label : Nat → Nat) : Prop :=
  ∀ task domain, s.tasks.get task = some domain →
    origin task = (hierarchyOf (parentAt s.heap domain)).map label

structure LineageOk (t : Tracked) : Prop where
  system : SystemOk t.system
  births : BirthsOk t.births
  labels : ∃ label, Labelled t.system.heap t.births label ∧ OriginsOk t.system t.origin label

section Steps

variable {s s' : LandlockSystem} {t : Tracked} {origin : Nat → Option Nat}

/-- The node of the domain of a task that had it before. -/
theorem hierarchy_kept (ok : SystemOk s') (kept : DomainsKept s.heap s'.heap) {task : Nat}
    {domain : Option Nat} (here : s'.tasks.get task = some domain) :
    hierarchyOf (parentAt s'.heap domain) = hierarchyOf (parentAt s.heap domain) := by
  cases domain with
  | none => rfl
  | some a =>
    obtain ⟨d, isDom⟩ := ok.heap.owned a (held_of_task here)
    have shape := ok.tasks task a here d isDom
    obtain ⟨x, isNode⟩ := Option.ne_none_iff_exists'.mp shape.in_hierarchy
    obtain ⟨old, isOld, same⟩ := kept.domains a d x isDom isNode
    have atNew : parentAt s'.heap (some a) = some d := isDom
    have atOld : parentAt s.heap (some a) = some old := isOld
    rw [atNew, atOld, same]
    rfl

theorem OriginsOk.kept (origins : OriginsOk s origin label) (ok : SystemOk s')
    (kept : DomainsKept s.heap s'.heap)
    (tasks : ∀ task domain, s'.tasks.get task = some domain → s.tasks.get task = some domain) :
    OriginsOk s' origin label := by
  intro task domain here
  rw [hierarchy_kept ok kept here]
  exact origins task domain (tasks task domain here)

theorem OriginsOk.forked (origins : OriginsOk s origin label) (ok : SystemOk s')
    (kept : DomainsKept s.heap s'.heap) {task child : Nat} {domain : Option Nat}
    (isTask : s.tasks.get task = some domain) (tasks : s'.tasks = s.tasks.set child domain) :
    OriginsOk s' (Function.update origin child (origin task)) label := by
  intro other domain' here
  rw [hierarchy_kept ok kept here]
  rw [tasks, Heap.get_set] at here
  split at here
  · rename_i isChild
    cases here
    rw [isChild, Function.update_self]
    exact origins task domain isTask
  · rename_i differs
    rw [Function.update_of_ne differs]
    exact origins other domain' here

/-- Actions other than a fork and a successful `landlock_restrict_self` leave the record. -/
theorem lineage_kept (ok : LineageOk t) (system : SystemOk s')
    (kept : DomainsKept t.system.heap s'.heap)
    (tasks : ∀ task domain, s'.tasks.get task = some domain →
      t.system.tasks.get task = some domain) : LineageOk { t with system := s' } := by
  obtain ⟨label, labelled, origins⟩ := ok.labels
  exact ⟨system, ok.births, label, labelled.kept kept, origins.kept system kept tasks⟩

/-- A node behind a merge is the new one or an old one. -/
theorem linked_get {hs hs₂ : Hierarchies} {above : Option Nat} {newHierarchy : Nat}
    {node : LandlockHierarchy} (kept : Kept hs hs₂)
    (live : ∀ x, above = some x → ∃ node, hs₂.get x = some node)
    (here : (linked hs₂ above newHierarchy).get x = some node) :
    x = newHierarchy ∧ node.parent = above ∨
      ∃ node₀, hs.get x = some node₀ ∧ node.parent = node₀.parent := by
  cases above with
  | none =>
    unfold linked at here
    rcases Heap.set_cases here with ⟨isNew, rfl⟩ | ⟨-, here⟩
    · exact .inl ⟨isNew, rfl⟩
    · exact .inr (kept x node here)
  | some p =>
    obtain ⟨on, isOn⟩ := live p rfl
    unfold linked at here
    simp only [isOn] at here
    rcases Heap.set_cases here with ⟨isNew, rfl⟩ | ⟨-, here⟩
    · exact .inl ⟨isNew, rfl⟩
    · rcases Heap.set_cases here with ⟨isParent, rfl⟩ | ⟨-, here⟩
      · rw [isParent]
        exact .inr (kept p on isOn)
      · exact .inr (kept x node here)

/-- The new node gets the next number. -/
theorem labelled_made (ok : SystemOk s) (labelled : Labelled s.heap births label)
    {task newDom newHierarchy : Nat} {domain : Option Nat} {h₂ : LandlockHeap}
    {r dom d : LandlockRuleset} {hs : Hierarchies} {above : Option Nat}
    (did : Restricted s s' task newDom newHierarchy domain h₂ r dom hs)
    (isDom : d = { dom with usage := d.usage })
    (isAbove : above = (hierarchyOf (parentAt h₂ domain)).map label) :
    Labelled s'.heap (births ++ [{ domain := d, above }])
      (Function.update label newHierarchy births.length) := by
  have apart : ∀ x node, s.heap.hierarchies.get x = some node → x ≠ newHierarchy := by
    rintro x node here rfl
    rw [did.fresh] at here
    cases here
  have number : ∀ x node, s.heap.hierarchies.get x = some node → label x < births.length := by
    intro x node here
    obtain ⟨b, isBirth, -⟩ := labelled.parents x node here
    exact (List.getElem?_eq_some_iff.mp isBirth).1
  have same : ∀ x node, s.heap.hierarchies.get x = some node →
      Function.update label newHierarchy births.length x = label x := by
    intro x node here
    exact Function.update_of_ne (apart x node here) _ _
  have old : ∀ x node, s.heap.hierarchies.get x = some node → ∀ b, births[label x]? = some b →
      (births ++ [{ domain := d, above }])[Function.update label newHierarchy births.length x]? =
        some b := by
    intro x node here b isBirth
    rw [same x node here, List.getElem?_append_left (number x node here)]
    exact isBirth
  have cases_ : ∀ x node, s'.heap.hierarchies.get x = some node →
      x = newHierarchy ∧ node.parent = hierarchyOf (parentAt h₂ domain) ∨
        ∃ node₀, s.heap.hierarchies.get x = some node₀ ∧ node.parent = node₀.parent := by
    intro x node here
    obtain ⟨mid, isMid, sameMid⟩ := did.after.nodes x node here
    dsimp only at isMid
    rw [did.reads] at isMid
    rw [sameMid]
    exact linked_get did.before.nodes did.live isMid
  constructor
  · intro x y node node' atX atY equal
    rcases cases_ x node atX with ⟨rfl, -⟩ | ⟨old₁, isOld₁, -⟩
    · rcases cases_ y node' atY with ⟨rfl, -⟩ | ⟨old₂, isOld₂, -⟩
      · rfl
      · rw [Function.update_self, same y old₂ isOld₂] at equal
        have below := number y old₂ isOld₂
        omega
    · rcases cases_ y node' atY with ⟨rfl, -⟩ | ⟨old₂, isOld₂, -⟩
      · rw [Function.update_self, same x old₁ isOld₁] at equal
        have below := number x old₁ isOld₁
        omega
      · rw [same x old₁ isOld₁, same y old₂ isOld₂] at equal
        exact labelled.once x y old₁ old₂ isOld₁ isOld₂ equal
  · intro x node here
    rcases cases_ x node here with ⟨rfl, parent⟩ | ⟨old₁, isOld₁, parent⟩
    · refine ⟨{ domain := d, above }, ?_, ?_⟩
      · rw [Function.update_self, List.getElem?_append_right (Nat.le_refl _), Nat.sub_self]
        rfl
      · rw [parent]
        dsimp only
        rw [isAbove]
        cases isNode : hierarchyOf (parentAt h₂ domain) with
        | none => rfl
        | some p =>
          obtain ⟨node₂, at₂⟩ := did.live p isNode
          obtain ⟨node₀, at₀, -⟩ := did.before.nodes p node₂ at₂
          rw [Option.map_some, Option.map_some, same p node₀ at₀]
    · obtain ⟨b, isBirth, isParent⟩ := labelled.parents x old₁ isOld₁
      refine ⟨b, old x old₁ isOld₁ b isBirth, ?_⟩
      rw [parent, isParent]
      cases up : old₁.parent with
      | none => rfl
      | some p =>
        obtain ⟨node₀, at₀⟩ := ok.heap.nodes.parents x old₁ p isOld₁ up
        rw [Option.map_some, Option.map_some, same p node₀ at₀]
  · intro a q x here isNode
    rcases after_made did.after here with ⟨-, isNew⟩ | ⟨mid, isMid, equal⟩
    · rw [isNew] at isNode
      dsimp only at isNode
      rw [did.merged.hierarchy] at isNode
      cases isNode
      refine ⟨{ domain := d, above }, ?_, ?_⟩
      · rw [Function.update_self, List.getElem?_append_right (Nat.le_refl _), Nat.sub_self]
        rfl
      · rw [isNew, isDom]
    · obtain ⟨first, isFirst, equal'⟩ := did.before.rulesets a mid isMid
      have isNode' : first.hierarchy = some x := by
        rw [equal, equal'] at isNode
        exact isNode
      obtain ⟨node₀, at₀⟩ := (ok.heap.chains a first x isFirst isNode').live
      obtain ⟨b, isBirth, content⟩ := labelled.content a first x isFirst isNode'
      refine ⟨b, old x node₀ at₀ b isBirth, ?_⟩
      rw [equal, equal', content]

/-- The node of the domain a merge is made on. -/
theorem parent_node {task newDom newHierarchy : Nat} {domain : Option Nat} {h₂ : LandlockHeap}
    {r dom : LandlockRuleset} {hs : Hierarchies}
    (did : Restricted s s' task newDom newHierarchy domain h₂ r dom hs) :
    hierarchyOf (parentAt h₂ domain) = hierarchyOf (parentAt s.heap domain) := by
  cases domain with
  | none => rfl
  | some a =>
    obtain ⟨p₂, at₂⟩ := did.owned a rfl
    obtain ⟨p, isAt, same⟩ := did.before.rulesets a p₂ at₂
    have on₂ : parentAt h₂ (some a) = some p₂ := at₂
    have on : parentAt s.heap (some a) = some p := isAt
    rw [on₂, on, same]
    rfl

theorem origins_made (origins : OriginsOk s origin label) (ok : SystemOk s) (system : SystemOk s')
    {task newDom newHierarchy next : Nat} {domain : Option Nat} {h₂ : LandlockHeap}
    {r dom : LandlockRuleset} {hs : Hierarchies}
    (did : Restricted s s' task newDom newHierarchy domain h₂ r dom hs) :
    OriginsOk s' (Function.update origin task (some next))
      (Function.update label newHierarchy next) := by
  intro other domain' here
  by_cases isTask : other = task
  · rw [isTask, did.tasks, Heap.get_set_same] at here
    cases here
    have held : s'.tasks.get task = some (some newDom) := by
      rw [did.tasks, Heap.get_set_same]
    obtain ⟨d, isNew⟩ := system.heap.owned newDom (held_of_task held)
    have atNew : parentAt s'.heap (some newDom) = some d := isNew
    have node : hierarchyOf (some d) = some newHierarchy := by
      rcases after_made did.after isNew with ⟨-, same⟩ | ⟨mid, isMid, -⟩
      · rw [same]
        exact did.merged.hierarchy
      · obtain ⟨first, isFirst, -⟩ := did.before.rulesets newDom mid isMid
        rw [did.freshDom] at isFirst
        cases isFirst
    rw [isTask, atNew, node, Function.update_self, Option.map_some, Function.update_self]
  · have before : s.tasks.get other = some domain' := by
      rw [did.tasks, Heap.get_set_other _ _ isTask] at here
      exact here
    rw [Function.update_of_ne isTask, origins other domain' before]
    cases domain' with
    | none => rfl
    | some a =>
      obtain ⟨q, isAt⟩ := system.heap.owned a (held_of_task here)
      rcases after_made did.after isAt with ⟨rfl, -⟩ | ⟨mid, isMid, same⟩
      · obtain ⟨taken, isTaken⟩ := ok.heap.owned a (held_of_task before)
        rw [did.freshDom] at isTaken
        cases isTaken
      · obtain ⟨first, isFirst, same'⟩ := did.before.rulesets a mid isMid
        have atOld : parentAt s.heap (some a) = some first := isFirst
        have atNew : parentAt s'.heap (some a) = some q := isAt
        obtain ⟨x, isNode⟩ := Option.ne_none_iff_exists'.mp
          (ok.tasks other a before first isFirst).in_hierarchy
        have hierarchy : hierarchyOf (some q) = some x := by
          rw [same, same']
          exact isNode
        have hierarchy' : hierarchyOf (some first) = some x := isNode
        obtain ⟨node, isThere⟩ := (ok.heap.chains a first x isFirst isNode).live
        have differs : x ≠ newHierarchy := by
          rintro rfl
          rw [did.fresh] at isThere
          cases isThere
        rw [atOld, atNew, hierarchy, hierarchy', Option.map_some, Option.map_some,
          Function.update_of_ne differs]

/-- A successful `landlock_restrict_self`. -/
theorem lineage_made (ok : LineageOk t) (system : SystemOk s') {task newDom newHierarchy : Nat}
    {domain : Option Nat} {h₂ : LandlockHeap} {r dom d : LandlockRuleset} {hs : Hierarchies}
    (did : Restricted t.system s' task newDom newHierarchy domain h₂ r dom hs)
    (isDom : d = { dom with usage := d.usage }) :
    LineageOk
      { system := s'
        births := t.births ++ [{ domain := d, above := t.origin task }]
        origin := Function.update t.origin task (some t.births.length) } := by
  obtain ⟨label, labelled, origins⟩ := ok.labels
  have isAbove : t.origin task = (hierarchyOf (parentAt h₂ domain)).map label := by
    rw [parent_node did]
    exact origins task domain did.here
  refine ⟨system, ?_, _, labelled_made ok.system labelled did isDom isAbove,
    origins_made origins ok.system system did⟩
  apply birthsOk_append ok.births
  · rw [isDom]
    exact domainShape_reused dom d.usage did.merged.shape
  · intro k above
    rw [isAbove] at above
    obtain ⟨x, isNode, rfl⟩ := Option.map_eq_some_iff.mp above
    obtain ⟨p₂, isParent, atTop⟩ := Option.bind_eq_some_iff.mp isNode
    obtain ⟨a, isDomain, at₂⟩ := Option.bind_eq_some_iff.mp isParent
    obtain ⟨p, isAt, same⟩ := did.before.rulesets a p₂ at₂
    have isTop : p.hierarchy = some x := by
      rw [same] at atTop
      exact atTop
    obtain ⟨b', isBirth, content⟩ := labelled.content a p x isAt isTop
    refine ⟨b', isBirth, fun vfs path request permits => ?_⟩
    have lower : Permits vfs p₂ path request := by
      refine merged_permits_parent did.merged did.parents did.plain isParent ?_
      rw [isDom] at permits
      exact permits
    rw [same, content] at lower
    exact lower

/-- Every action keeps the record in line with the system. -/
theorem record_ok (color : RbInsertColor) (ok : LineageOk t) {act : LandlockAct}
    (enabled : Enabled t.system act) :
    ∃ result s', act.run color t.system = some (result, s') ∧
      LineageOk (t.record s' act result) := by
  obtain ⟨result, s', ran, system, outcome⟩ := act_does color ok.system act enabled
  refine ⟨result, s', ran, ?_⟩
  cases outcome with
  | failed _ e kept tasks =>
    have quiet : t.record s' act (.error (.err e)) = { t with system := s' } := by
      cases act <;> rfl
    rw [quiet]
    refine lineage_kept ok system kept fun task domain here => ?_
    rw [tasks] at here
    exact here
  | quiet _ value isQuiet kept tasks =>
    have quiet : t.record s' act (.ok value) = { t with system := s' } := by
      cases act with
      | restrictSelf task ruleset newDom newHierarchy permitted allocs => exact isQuiet.elim
      | fork task child => exact isQuiet.elim
      | _ => rfl
    rw [quiet]
    refine lineage_kept ok system kept fun task domain here => ?_
    rw [tasks] at here
    exact here
  | forked task child domain here kept tasks =>
    obtain ⟨label, labelled, origins⟩ := ok.labels
    exact ⟨system, ok.births, label, labelled.kept kept, origins.forked system kept here tasks⟩
  | exited task kept tasks =>
    refine lineage_kept ok system kept fun other domain here => ?_
    rw [tasks, Heap.get_free] at here
    split at here
    · cases here
    · exact here
  | restricted task ruleset newDom newHierarchy allocs domain h₂ r dom hs did =>
    have held : s'.tasks.get task = some (some newDom) := by
      rw [did.tasks, Heap.get_set_same]
    obtain ⟨d, isNew⟩ := system.heap.owned newDom (held_of_task held)
    have isDom : d = { dom with usage := d.usage } := by
      rcases after_made did.after isNew with ⟨-, same⟩ | ⟨mid, isMid, -⟩
      · exact same
      · obtain ⟨first, isFirst, -⟩ := did.before.rulesets newDom mid isMid
        rw [did.freshDom] at isFirst
        cases isFirst
    unfold Tracked.record
    simp only [isNew]
    exact lineage_made ok system did isDom

theorem lineage_start (boot : AtBoot t.system) (unborn : t.births = [])
    (noOrigin : ∀ task, t.origin task = none) : LineageOk t := by
  have ok := atBoot_ok boot
  have noNode : ∀ x node, t.system.heap.hierarchies.get x = some node → False := by
    intro x node here
    rw [boot.hierarchies] at here
    cases here
  refine ⟨ok, ⟨?_, ?_⟩, id, ⟨?_, ?_, ?_⟩, ?_⟩
  · intro b member
    rw [unborn] at member
    cases member
  · intro i b k here
    rw [unborn] at here
    cases here
  · exact fun x y node node' here => (noNode x node here).elim
  · exact fun x node here => (noNode x node here).elim
  · intro a d x here isNode
    obtain ⟨node, live⟩ := (ok.heap.chains a d x here isNode).live
    exact (noNode x node live).elim
  · intro task domain here
    rw [noOrigin, boot.tasks task domain here]
    rfl

theorem reachable_lineage (color : RbInsertColor)
    (reached : (lineages color).Reachable Machine.free t) : LineageOk t := by
  refine reached.invariant (fun t₀ start => lineage_start start.1 start.2.1 start.2.2) ?_
  intro t act t' ok _ stepped
  change (if Enabled t.system act then
    (act.run color t.system).map fun (result, s') => t.record s' act result else none) =
      some t' at stepped
  split at stepped
  · rename_i enabled
    obtain ⟨result, s', ran, ok'⟩ := record_ok color ok enabled
    rw [ran] at stepped
    cases stepped
    exact ok'
  · cases stepped

end Steps

/-- A path request that the domain of a task denies. -/
def Denied (h : LandlockHeap) (vfs : Vfs) (domain : Option Nat) (path : VfsPath) (request : U16) :
    Prop :=
  ∃ d, parentAt h domain = some d ∧ checkAccessPath vfs d path request ≠ .ok ()

variable {t : Tracked} {tracer tracee : Nat} {tracerDom traceeDom : Option Nat}

/-- The domain of a task and what is written down of it. -/
theorem origin_of_task (ok : LineageOk t) {label : Nat → Nat}
    (labelled : Labelled t.system.heap t.births label)
    (origins : OriginsOk t.system t.origin label) {task a : Nat}
    (here : t.system.tasks.get task = some (some a)) :
    ∃ d x b, t.system.heap.rulesets.get a = some d ∧ DomainShape d ∧ d.hierarchy = some x ∧
      t.origin task = some (label x) ∧ t.births[label x]? = some b ∧
      d = { b.domain with usage := d.usage } := by
  obtain ⟨d, isDom⟩ := ok.system.heap.owned a (held_of_task here)
  have shape := ok.system.tasks task a here d isDom
  obtain ⟨x, isNode⟩ := Option.ne_none_iff_exists'.mp shape.in_hierarchy
  obtain ⟨b, isBirth, content⟩ := labelled.content a d x isDom isNode
  refine ⟨d, x, b, isDom, shape, isNode, ?_, isBirth, content⟩
  have atDom : parentAt t.system.heap (some a) = some d := isDom
  have node : hierarchyOf (some d) = some x := isNode
  rw [origins task (some a) here, atDom, node, Option.map_some]

/-- `domain_scope_le` answers whether the tracer has no domain, or the tracee's domain is the
tracer's or was derived from it; then every path request the tracer's domain denies is denied
by the tracee's. -/
theorem ptrace_scoping (color : RbInsertColor)
    (reached : (lineages color).Reachable Machine.free t)
    (isTracer : t.system.tasks.get tracer = some tracerDom)
    (isTracee : t.system.tasks.get tracee = some traceeDom) :
    (∃ answer, domainScopeLe t.system.heap tracerDom traceeDom = some answer ∧
      (answer = true ↔ tracerDom = none ∨ ∃ i j, t.origin tracee = some i ∧
        t.origin tracer = some j ∧ DerivedFrom t.births i j)) ∧
      (taskPtrace t.system.heap tracerDom traceeDom = some (.ok ()) →
        ∀ vfs path request, Denied t.system.heap vfs tracerDom path request →
          Denied t.system.heap vfs traceeDom path request) := by
  have ok := reachable_lineage color reached
  obtain ⟨label, labelled, origins⟩ := ok.labels
  cases tracerDom with
  | none =>
    refine ⟨⟨true, rfl, by simp only [true_or]⟩, fun _ vfs path request denied => ?_⟩
    obtain ⟨d, absent, -⟩ := denied
    cases absent
  | some a =>
    obtain ⟨d, y, b, isDom, shape, atTop, isOrigin, isBirth, content⟩ :=
      origin_of_task ok labelled origins isTracer
    cases traceeDom with
    | none =>
      have noOrigin : t.origin tracee = none := origins tracee none isTracee
      refine ⟨⟨false, rfl, ?_⟩, fun allowed => by cases allowed⟩
      simp only [Bool.false_eq_true, reduceCtorEq, noOrigin, false_and, exists_false, or_self]
    | some c =>
      obtain ⟨d', x, b', isDom', shape', atTop', isOrigin', isBirth', content'⟩ :=
        origin_of_task ok labelled origins isTracee
      obtain ⟨target, isTarget⟩ := (ok.system.heap.chains a d y isDom atTop).live
      have chain := ok.system.heap.chains c d' x isDom' atTop'
      obtain ⟨answer, walked, means⟩ :=
        scopeWalk_derived labelled isTarget chain shape'.mask_limit
      have answered : domainScopeLe t.system.heap (some a) (some c) = some answer := by
        unfold domainScopeLe
        simp only [isDom, isDom', atTop, atTop', walked]
      refine ⟨⟨answer, answered, ?_⟩, ?_⟩
      · rw [means]
        simp only [reduceCtorEq, isOrigin, isOrigin', Option.some.injEq, false_or]
        constructor
        · intro derived
          exact ⟨label x, label y, rfl, rfl, derived⟩
        · rintro ⟨i, j, rfl, rfl, derived⟩
          exact derived
      · intro allowed vfs path request denied
        unfold taskPtrace at allowed
        simp only [answered, Option.map_some, Option.some.injEq] at allowed
        have isScoped : answer = true := by
          cases answer with
          | true => rfl
          | false => cases allowed
        obtain ⟨b₂, isBirth₂, lower⟩ :=
          derived_permits ok.births (means.mp isScoped) isBirth'
        rw [isBirth] at isBirth₂
        cases isBirth₂
        obtain ⟨q, isQ, refused⟩ := denied
        have same : parentAt t.system.heap (some a) = some d := isDom
        rw [same] at isQ
        cases isQ
        refine ⟨d', isDom', fun granted => refused ?_⟩
        rw [checkAccessPath_iff shape'] at granted
        rw [checkAccessPath_iff shape]
        rw [content'] at granted
        have above := lower vfs path request granted
        rw [content]
        exact above

/-- One task without a domain. -/
def oneTask : Tracked :=
  { system :=
      { heap := { rulesets := .empty, hierarchies := .empty }, files := [],
        tasks := Heap.set .empty 1 none, dying := [] }
    births := []
    origin := fun _ => none }

/-- A task restricts itself, and its child does so once more. -/
def childRestricted : List LandlockAct :=
  [.createRuleset 5 100 [], .restrictSelf 1 100 101 201 true [], .fork 1 2,
    .restrictSelf 2 100 102 202 true []]

def withChild : Tracked := ((lineages .id).exec oneTask childRestricted).getD oneTask

theorem oneTask_starts : (lineages .id).start oneTask := by
  refine ⟨⟨rfl, rfl, rfl, rfl, fun t d here => ?_⟩, rfl, fun _ => rfl⟩
  change (Heap.set Heap.empty 1 none).get t = some d at here
  rcases Heap.set_cases here with ⟨-, rfl⟩ | ⟨-, here⟩
  · rfl
  · cases here

theorem ptrace_scoping_child :
    (∃ answer, domainScopeLe withChild.system.heap (some 101) (some 102) = some answer ∧
      (answer = true ↔ some 101 = none ∨ ∃ i j, withChild.origin 2 = some i ∧
        withChild.origin 1 = some j ∧ DerivedFrom withChild.births i j)) ∧
      (taskPtrace withChild.system.heap (some 101) (some 102) = some (.ok ()) →
        ∀ vfs path request, Denied withChild.system.heap vfs (some 101) path request →
          Denied withChild.system.heap vfs (some 102) path request) := by
  have ran : (lineages .id).exec oneTask childRestricted = some withChild := rfl
  have isTracer : withChild.system.tasks.get 1 = some (some 101) := rfl
  have isTracee : withChild.system.tasks.get 2 = some (some 102) := rfl
  exact ptrace_scoping .id ⟨oneTask, oneTask_starts, Machine.exec_reaches ran⟩ isTracer isTracee

end Ksrc.Guarantees.LandlockLineage

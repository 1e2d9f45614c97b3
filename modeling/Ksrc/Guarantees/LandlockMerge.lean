import Mathlib.Data.List.Perm.Subperm
import Ksrc.Guarantees.LandlockShape

/-!
# What a merge of a ruleset into a domain makes

Source: `landlock/src/ruleset.c`. `inherit_ruleset` copies the rules of the parent and
`merge_ruleset` stacks one layer on them; both are loops of `insert_rule` over rules of
distinct objects. A merge that fails leaves the hierarchy as it reads.
-/
namespace Ksrc.Guarantees.LandlockMerge

open Library Library.SearchTree Source LandlockShape

variable {r r' : LandlockRuleset} {rules : List LandlockRule}

/-- The rule of a list for an object. -/
def ruleOf (rules : List LandlockRule) (object : Nat) : Option LandlockRule :=
  rules.find? fun rule => decide (rule.object = object)

/-- The stack of an object after the rules of a list were inserted. -/
def afterRules (rules : List LandlockRule) (r : LandlockRuleset) (object : Nat) :
    Option (List LandlockLayer) :=
  match ruleOf rules object with
  | some rule => some (combine (layersAt r object) rule.layers)
  | none => layersAt r object

structure Loads (r r' : LandlockRuleset) (rules : List LandlockRule) : Prop where
  shape : TreeShape r'
  stack : ∀ k, layersAt r' k = afterRules rules r k
  masks : r'.fsAccessMasks = r.fsAccessMasks
  hierarchy : r'.hierarchy = r.hierarchy
  usage : r'.usage = r.usage

/-- What a loop of insertions does: it fails without a warning, or inserts all rules. -/
def LoadsAll (r : LandlockRuleset) (rules : List LandlockRule)
    (result : Except Refusal LandlockRuleset) : Prop :=
  (∃ e, result = .error (.err e)) ∨ ∃ r', result = .ok r' ∧ Loads r r' rules

theorem ruleOf_cons_other {rule : LandlockRule} {k : Nat} (other : k ≠ rule.object) :
    ruleOf (rule :: rules) k = ruleOf rules k := by
  unfold ruleOf
  rw [List.find?_cons_of_neg]
  simp only [decide_eq_true_eq]
  exact other.symm

theorem ruleOf_cons_same (rule : LandlockRule) (rules : List LandlockRule) :
    ruleOf (rule :: rules) rule.object = some rule := by
  unfold ruleOf
  rw [List.find?_cons_of_pos]
  simp only [decide_true]

theorem ruleOf_eq_none {k : Nat} (apart : ∀ rule ∈ rules, rule.object ≠ k) :
    ruleOf rules k = none := by
  unfold ruleOf
  rw [List.find?_eq_none]
  intro rule member same
  exact apart rule member (of_decide_eq_true same)

/-- The rules of an ordered tree, in the order of the loops over it. -/
theorem layersAt_eq_ruleOf (shape : TreeShape r) (k : Nat) :
    layersAt r k = (ruleOf r.root.postorder k).map LandlockRule.layers := by
  unfold layersAt ruleOf
  rw [← find_postorder shape.ordered]

theorem inheritRules_effect (color : RbInsertColor) (allocs : List Bool) (shape : TreeShape r)
    (apart : rules.Pairwise fun a b => a.object ≠ b.object)
    (role : ∀ rule ∈ rules, ∀ old, layersAt r rule.object = some old → Role old rule.layers) :
    LoadsAll r rules (inheritRules color rules r allocs).1 := by
  induction rules generalizing r allocs with
  | nil => exact .inr ⟨r, rfl, ⟨shape, fun _ => rfl, rfl, rfl, rfl⟩⟩
  | cons rule rest ih =>
    rw [List.pairwise_cons] at apart
    have inserted := insertRule_effect color allocs shape (role rule List.mem_cons_self)
    unfold inheritRules
    rcases inserted with ⟨e, failed⟩ | ⟨r₁, done, placed⟩
    · left
      split
      · rename_i shown
        rw [shown] at failed
        cases failed
        exact ⟨e, rfl⟩
      · rename_i shown
        rw [shown] at failed
        cases failed
    · split
      · rename_i shown
        rw [shown] at done
        cases done
      · rename_i child allocs₁ shown
        rw [shown] at done
        cases done
        have elsewhere : ∀ later ∈ rest, layersAt r₁ later.object = layersAt r later.object := by
          intro later member
          rw [placed.stack, if_neg (apart.1 later member).symm]
        have behind := ih allocs₁ (placed.shape shape) apart.2 fun later member old here =>
          role later (List.mem_cons_of_mem _ member) old
            ((elsewhere later member).symm.trans here)
        rcases behind with failed | ⟨r', done, loads⟩
        · exact .inl failed
        · right
          refine ⟨r', done, loads.shape, ?_, loads.masks.trans placed.masks,
            loads.hierarchy.trans placed.hierarchy, loads.usage.trans placed.usage⟩
          intro k
          rw [loads.stack]
          unfold afterRules
          by_cases here : k = rule.object
          · have gone : ruleOf rest k = none :=
              ruleOf_eq_none fun later member => here ▸ (apart.1 later member).symm
            rw [gone, placed.stack, if_pos here, here, ruleOf_cons_same]
          · rw [ruleOf_cons_other here, placed.stack, if_neg here]

/-- The rule `merge_ruleset` inserts for one of the ruleset. -/
def atLevel (n : Nat) (rule : LandlockRule) : LandlockRule :=
  { rule with layers := [{ level := BitVec.ofNat 16 n, access := rule.layer0.access }] }

theorem insertRule_masks {color : RbInsertColor} {object : Option Nat}
    {layers : List LandlockLayer} {allocs allocs' : List Bool}
    (done : insertRule color r object layers allocs = (.ok r', allocs')) :
    r'.fsAccessMasks = r.fsAccessMasks := by
  unfold insertRule at done
  repeat' split at done
  all_goals first
    | (cases done; rfl)
    | cases done

/-- The loop of `merge_ruleset` over the rules of a ruleset. -/
theorem mergeRules_eq (color : RbInsertColor) (allocs : List Bool)
    (unstacked : ∀ rule ∈ rules, Unstacked rule.layers) :
    mergeRules color rules r allocs =
      inheritRules color (rules.map (atLevel r.numLayers)) r allocs := by
  induction rules generalizing r allocs with
  | nil => rfl
  | cons rule rest ih =>
    obtain ⟨access, one⟩ := unstacked rule List.mem_cons_self
    have length : rule.layers.length = 1 := by rw [one]; rfl
    have level : rule.layer0.level = 0 := by unfold LandlockRule.layer0; rw [one]; rfl
    rw [List.map_cons]
    unfold mergeRules inheritRules
    rw [if_neg (not_not.mpr length), if_neg (not_not.mpr level)]
    dsimp only [atLevel]
    split
    · rfl
    · rename_i shown
      have same : LandlockRuleset.numLayers _ = r.numLayers :=
        congrArg List.length (insertRule_masks shown)
      rw [ih _ fun later member => unstacked later (List.mem_cons_of_mem _ member), same]

/-- A stack with one more layer, where the ruleset has a rule. -/
def stackedOn (n : Nat) (old new : Option (List LandlockLayer)) : Option (List LandlockLayer) :=
  match new with
  | some (layer :: _) =>
    some (old.getD [] ++ [{ level := BitVec.ofNat 16 n, access := layer.access }])
  | _ => old

theorem level_toNat {n : Nat} (limit : n ≤ landlockMaxNumLayers) :
    (BitVec.ofNat 16 n).toNat = n := by
  unfold landlockMaxNumLayers at limit
  rw [BitVec.toNat_ofNat]
  omega

theorem level_ne_zero {n : Nat} (positive : 1 ≤ n) (limit : n ≤ landlockMaxNumLayers) :
    BitVec.ofNat 16 n ≠ 0 := by
  intro zero
  have value := level_toNat limit
  rw [zero] at value
  simp only [BitVec.ofNat_eq_ofNat, BitVec.toNat_ofNat, Nat.zero_mod] at value
  omega

theorem combine_layer (old : Option (List LandlockLayer)) {layer : LandlockLayer}
    (real : layer.level ≠ 0) : combine old [layer] = old.getD [] ++ [layer] := by
  match old with
  | none => rfl
  | some [] => rfl
  | some (this :: rest) =>
    unfold combine
    simp only [if_neg real]

theorem ruleOf_map_atLevel (n k : Nat) (rules : List LandlockRule) :
    ruleOf (rules.map (atLevel n)) k = (ruleOf rules k).map (atLevel n) := by
  unfold ruleOf
  rw [List.find?_map]
  rfl

/-- What the loop of `merge_ruleset` leaves for an object. -/
theorem afterRules_merge {n : Nat} {src : LandlockRuleset} (shape : RulesetShape src)
    (positive : 1 ≤ n) (limit : n ≤ landlockMaxNumLayers) (k : Nat) :
    afterRules (src.root.postorder.map (atLevel n)) r k =
      stackedOn n (layersAt r k) (layersAt src k) := by
  unfold afterRules
  rw [ruleOf_map_atLevel, layersAt_eq_ruleOf shape.toTreeShape k]
  cases found : ruleOf src.root.postorder k with
  | none => rfl
  | some rule =>
    have member : rule ∈ src.root.inorder :=
      (postorder_perm src.root).subset (List.mem_of_find?_eq_some found)
    obtain ⟨access, one⟩ := shape.rules rule member
    simp only [Option.map_some, one, stackedOn, atLevel, LandlockRule.layer0, List.headD_cons]
    rw [combine_layer _ (level_ne_zero positive limit)]

theorem stacked_length_le {n : Nat} {layers : List LandlockLayer} (stacked : Stacked n layers) :
    layers.length ≤ n := by
  have levels : (layers.map fun layer => layer.level.toNat).Nodup := by
    apply List.Pairwise.map (R := fun a b : LandlockLayer => a.level.toNat < b.level.toNat)
    · intro a b less
      exact less.ne
    · exact stacked.ascending
  have inside : (layers.map fun layer => layer.level.toNat) ⊆ List.range' 1 n := by
    intro level member
    obtain ⟨layer, here, rfl⟩ := List.mem_map.mp member
    have bounds := stacked.within layer here
    rw [List.mem_range'_1]
    omega
  have short := (List.subperm_of_subset levels inside).length_le
  rw [List.length_map, List.length_range'] at short
  exact short

theorem stacked_mono {n m : Nat} {layers : List LandlockLayer} (stacked : Stacked n layers)
    (le : n ≤ m) : Stacked m layers :=
  ⟨stacked.some_layer, stacked.ascending, fun layer member =>
    ⟨(stacked.within layer member).1, (stacked.within layer member).2.trans le⟩⟩

theorem stacked_levels_ne_zero {n : Nat} {layers : List LandlockLayer}
    (stacked : Stacked n layers) : ∀ layer ∈ layers, layer.level ≠ 0 := by
  intro layer member zero
  have positive := (stacked.within layer member).1
  rw [zero] at positive
  exact absurd positive (by decide)

/-- One more layer on top keeps the levels ascending. -/
theorem stacked_snoc {n : Nat} {old : Option (List LandlockLayer)} (access : U16)
    (limit : n + 1 ≤ landlockMaxNumLayers) (stacked : ∀ layers, old = some layers → Stacked n layers) :
    Stacked (n + 1) (old.getD [] ++ [{ level := BitVec.ofNat 16 (n + 1), access }]) := by
  have value := level_toNat limit
  have below : ∀ layer ∈ old.getD [], 1 ≤ layer.level.toNat ∧ layer.level.toNat ≤ n := by
    intro layer member
    cases old with
    | none => cases member
    | some layers => exact (stacked layers rfl).within layer member
  constructor
  · exact List.append_ne_nil_of_right_ne_nil _ (List.cons_ne_nil _ _)
  · rw [List.pairwise_append]
    refine ⟨?_, List.pairwise_singleton _ _, ?_⟩
    · cases old with
      | none => exact List.Pairwise.nil
      | some layers => exact (stacked layers rfl).ascending
    · intro layer member last isLast
      rw [List.mem_singleton.mp isLast, value]
      have bounds := below layer member
      omega
  · intro layer member
    rcases List.mem_append.mp member with member | isLast
    · have bounds := below layer member
      omega
    · rw [List.mem_singleton.mp isLast, value]
      omega

theorem stacked_stackedOn {n : Nat} {old new : Option (List LandlockLayer)}
    (limit : n + 1 ≤ landlockMaxNumLayers) (stacked : ∀ layers, old = some layers → Stacked n layers)
    {layers : List LandlockLayer} (here : stackedOn (n + 1) old new = some layers) :
    Stacked (n + 1) layers := by
  unfold stackedOn at here
  split at here
  · cases here
    exact stacked_snoc _ limit stacked
  · exact stacked_mono (stacked layers here) (Nat.le_succ n)

/-- What `merge_ruleset` makes of a domain whose rules leave the last layer free. -/
structure OneLayer (dst src r' : LandlockRuleset) : Prop where
  shape : TreeShape r'
  stack : ∀ k, layersAt r' k = stackedOn dst.numLayers (layersAt dst k) (layersAt src k)
  masks : r'.fsAccessMasks = dst.fsAccessMasks.set (dst.numLayers - 1) (src.fsAccessMasks.headD 0)
  hierarchy : r'.hierarchy = dst.hierarchy
  usage : r'.usage = dst.usage

theorem mergeRuleset_effect (color : RbInsertColor) (allocs : List Bool) {dst src : LandlockRuleset}
    {n : Nat} (shape : TreeShape dst) (in_hierarchy : dst.hierarchy ≠ none)
    (layers : dst.numLayers = n + 1) (limit : n + 1 ≤ landlockMaxNumLayers)
    (stacked : ∀ k layers, layersAt dst k = some layers → Stacked n layers)
    (plain : RulesetShape src) :
    (∃ e, (mergeRuleset color dst src allocs).1 = .error (.err e)) ∨
      ∃ r', (mergeRuleset color dst src allocs).1 = .ok r' ∧ OneLayer dst src r' := by
  have accepted : ¬ (src.numLayers ≠ 1 ∨ dst.numLayers < 1) := by
    rw [plain.one_mask, layers]
    omega
  unfold mergeRuleset
  rw [if_neg in_hierarchy, if_neg accepted]
  dsimp only
  have unstacked : ∀ rule ∈ src.root.postorder, Unstacked rule.layers := fun rule member =>
    plain.rules rule ((postorder_perm src.root).subset member)
  rw [mergeRules_eq color allocs unstacked]
  generalize masked : ({ dst with
    fsAccessMasks := dst.fsAccessMasks.set (dst.numLayers - 1) (src.fsAccessMasks.headD 0) } :
      LandlockRuleset) = r₀
  have sameStack : ∀ k, layersAt r₀ k = layersAt dst k := fun k => by rw [← masked]; rfl
  have sameLayers : r₀.numLayers = n + 1 := by
    rw [← masked, ← layers]
    unfold LandlockRuleset.numLayers
    rw [List.length_set]
  have shape₀ : TreeShape r₀ := by
    rw [← masked]
    exact ⟨shape.ordered, shape.counted, shape.bounded⟩
  have apart : (src.root.postorder.map (atLevel r₀.numLayers)).Pairwise
      fun a b => a.object ≠ b.object :=
    (pairwise_postorder plain.ordered).map _ fun _ _ differ => differ
  have loaded := inheritRules_effect color allocs shape₀ apart (by
    intro rule member old here
    obtain ⟨source, -, rfl⟩ := List.mem_map.mp member
    rw [sameStack] at here
    have is := stacked _ _ here
    refine .stack _ rfl ?_ is.some_layer (stacked_levels_ne_zero is) ?_
    · dsimp only [atLevel]
      rw [sameLayers]
      exact level_ne_zero (Nat.le_add_left 1 n) limit
    · have short := stacked_length_le is
      omega)
  rcases loaded with failed | ⟨r', done, loads⟩
  · exact .inl failed
  · right
    refine ⟨r', done, loads.shape, ?_, ?_, ?_, ?_⟩
    · intro k
      rw [loads.stack, sameLayers, afterRules_merge plain (Nat.le_add_left 1 n) limit, sameStack,
        layers]
    · rw [loads.masks, ← masked]
    · rw [loads.hierarchy, ← masked]
    · rw [loads.usage, ← masked]

section Domains

variable {hs : Hierarchies} {parent : Option LandlockRuleset} {ruleset newDom dom : LandlockRuleset}
  {newHierarchy : Nat}

/-- The hierarchy node of a parent. -/
def hierarchyOf (parent : Option LandlockRuleset) : Option Nat :=
  parent.bind LandlockRuleset.hierarchy

/-- The masks of a parent. -/
def masksOf (parent : Option LandlockRuleset) : List U16 :=
  (parent.map LandlockRuleset.fsAccessMasks).getD []

/-- The stack a parent has for an object. -/
def parentLayersAt (parent : Option LandlockRuleset) (object : Nat) : Option (List LandlockLayer) :=
  parent.bind fun parent => layersAt parent object

/-- The hierarchy with one more node under a parent. -/
def linked (hs : Hierarchies) (above : Option Nat) (new : Nat) : Hierarchies :=
  match above with
  | none => hs.set new { parent := none, usage := 1 }
  | some x =>
    match hs.get x with
    | none => hs
    | some on =>
      (hs.set x { on with usage := on.usage + 1 }).set new { parent := some x, usage := 1 }

/-- What a caller of `landlock_merge_ruleset` provides: shapes, and a parent whose node is
there. -/
structure Mergeable (hs : Hierarchies) (parent : Option LandlockRuleset) (ruleset : LandlockRuleset)
    (newHierarchy : Nat) : Prop where
  parentShape : ∀ p, parent = some p → DomainShape p
  rulesetShape : RulesetShape ruleset
  fresh : hs.get newHierarchy = none
  live : ∀ x, hierarchyOf parent = some x → ∃ node, hs.get x = some node ∧ 1 ≤ node.usage

/-- The domain a merge makes. -/
structure Merged (parent : Option LandlockRuleset) (ruleset dom : LandlockRuleset)
    (newHierarchy : Nat) : Prop where
  shape : DomainShape dom
  stack : ∀ k, layersAt dom k =
    stackedOn ((masksOf parent).length + 1) (parentLayersAt parent k) (layersAt ruleset k)
  masks : dom.fsAccessMasks = masksOf parent ++ ruleset.fsAccessMasks
  hierarchy : dom.hierarchy = some newHierarchy
  usage : dom.usage = 1

theorem putHierarchy_single (fresh : hs.get newHierarchy = none) :
    ∃ hs', putHierarchy (hs.set newHierarchy { parent := none, usage := 1 }) (some newHierarchy) =
      some hs' ∧ ∀ x, hs'.get x = hs.get x := by
  unfold putHierarchy landlockMaxNumLayers putHierarchyFrom
  rw [Heap.get_set_same]
  refine ⟨_, rfl, fun x => ?_⟩
  rw [Heap.get_free, Heap.get_set]
  split
  · rename_i here
    rw [here, fresh]
  · rfl

/-- Putting the new node away takes back the reference to its parent. -/
theorem putHierarchy_linked {above : Option Nat} (fresh : hs.get newHierarchy = none)
    (live : ∀ x, above = some x → ∃ node, hs.get x = some node ∧ 1 ≤ node.usage)
    {hs₁ : Hierarchies} (reads : ∀ x, hs₁.get x = (linked hs above newHierarchy).get x) :
    ∃ hs', putHierarchy hs₁ (some newHierarchy) = some hs' ∧ ∀ x, hs'.get x = hs.get x := by
  unfold putHierarchy landlockMaxNumLayers
  cases above with
  | none =>
    unfold putHierarchyFrom
    rw [reads, linked, Heap.get_set_same]
    refine ⟨_, rfl, fun x => ?_⟩
    rw [Heap.get_free, reads, linked, Heap.get_set]
    split
    · rename_i here
      rw [here, fresh]
    · rfl
  | some x =>
    obtain ⟨node, here, used⟩ := live x rfl
    have other : x ≠ newHierarchy := by
      rintro rfl
      rw [fresh] at here
      cases here
    have shown : linked hs (some x) newHierarchy =
        (hs.set x { node with usage := node.usage + 1 }).set newHierarchy
          { parent := some x, usage := 1 } := by
      unfold linked
      simp only [here]
    have atNew : hs₁.get newHierarchy = some { parent := some x, usage := 1 } := by
      rw [reads, shown, Heap.get_set_same]
    have atParent : (hs₁.free newHierarchy).get x =
        some { node with usage := node.usage + 1 } := by
      rw [Heap.get_free, if_neg other, reads, shown, Heap.get_set, if_neg other,
        Heap.get_set_same]
    have again : ¬ node.usage + 1 = 1 := by omega
    unfold putHierarchyFrom
    simp only [atNew, if_true]
    unfold putHierarchyFrom
    simp only [atParent, if_neg again, Nat.add_sub_cancel]
    refine ⟨_, rfl, fun y => ?_⟩
    rw [Heap.get_set, Heap.get_free, reads, shown, Heap.get_set, Heap.get_set]
    by_cases atX : y = x
    · rw [if_pos atX, atX, here]
    · rw [if_neg atX]
      by_cases atN : y = newHierarchy
      · rw [if_pos atN, atN, fresh]
      · rw [if_neg atN, if_neg atN, if_neg atX]

theorem stacked_layersAt (shape : DomainShape dom) {k : Nat} {layers : List LandlockLayer}
    (here : layersAt dom k = some layers) : Stacked dom.numLayers layers :=
  (rules_iff shape.toTreeShape).mp shape.rules k layers here

/-- The copy of a parent into a domain without rules. -/
theorem inheritRules_copy (color : RbInsertColor) (allocs : List Bool) {child p : LandlockRuleset}
    (empty : child.root = .nil) (none : child.numRules = 0) (shape : TreeShape p) :
    (∃ e, (inheritRules color p.root.postorder child allocs).1 = .error (.err e)) ∨
      ∃ r', (inheritRules color p.root.postorder child allocs).1 = .ok r' ∧ TreeShape r' ∧
        (∀ k, layersAt r' k = layersAt p k) ∧ r'.fsAccessMasks = child.fsAccessMasks ∧
        r'.hierarchy = child.hierarchy ∧ r'.usage = child.usage := by
  have absent : ∀ k, layersAt child k = Option.none := by
    intro k
    unfold layersAt
    rw [empty]
    rfl
  have childShape : TreeShape child := by
    constructor
    · rw [empty]
      exact List.Pairwise.nil
    · rw [empty, none]
      rfl
    · rw [none]
      exact Nat.zero_le _
  have loaded := inheritRules_effect color allocs childShape (pairwise_postorder shape.ordered)
    (fun rule _ old here => by rw [absent] at here; cases here)
  rcases loaded with failed | ⟨r', done, loads⟩
  · exact .inl failed
  · right
    refine ⟨r', done, loads.shape, fun k => ?_, loads.masks, loads.hierarchy, loads.usage⟩
    rw [loads.stack, layersAt_eq_ruleOf shape]
    unfold afterRules
    rw [absent]
    cases ruleOf p.root.postorder k with
    | none => rfl
    | some rule => rfl

/-- The new domain before its rules: its masks leave room for those of the parent. -/
structure Blank (newDom : LandlockRuleset) (n newHierarchy : Nat) : Prop where
  empty : newDom.root = .nil
  none : newDom.numRules = 0
  masks : newDom.fsAccessMasks = List.replicate (n + 1) 0
  hierarchy : newDom.hierarchy = some newHierarchy
  usage : newDom.usage = 1

/-- What `inherit_ruleset` leaves of the new domain. -/
structure Inherited (parent : Option LandlockRuleset) (child : LandlockRuleset)
    (newHierarchy : Nat) : Prop where
  shape : TreeShape child
  stack : ∀ k, layersAt child k = parentLayersAt parent k
  masks : child.fsAccessMasks = masksOf parent ++ [0]
  hierarchy : child.hierarchy = some newHierarchy
  usage : child.usage = 1

theorem inheritRuleset_effect (color : RbInsertColor) (allocs : List Bool)
    (ready : Mergeable hs parent ruleset newHierarchy)
    (blank : Blank newDom (masksOf parent).length newHierarchy) :
    ∃ result hs₁ allocs', inheritRuleset color
        (hs.set newHierarchy { parent := none, usage := 1 }) parent newDom newHierarchy allocs =
          some (result, hs₁, allocs') ∧
      ((∃ e, result = .error (.err e)) ∧
          hs₁ = hs.set newHierarchy { parent := none, usage := 1 } ∨
        ∃ child, result = .ok child ∧ Inherited parent child newHierarchy ∧
          ∀ x, hs₁.get x = (linked hs (hierarchyOf parent) newHierarchy).get x) := by
  cases parent with
  | none =>
    refine ⟨_, _, _, rfl, .inr ⟨newDom, rfl, ?_, fun _ => rfl⟩⟩
    constructor
    · constructor
      · rw [blank.empty]
        exact List.Pairwise.nil
      · rw [blank.empty, blank.none]
        rfl
      · rw [blank.none]
        exact Nat.zero_le _
    · intro k
      unfold layersAt
      rw [blank.empty]
      rfl
    · exact blank.masks
    · exact blank.hierarchy
    · exact blank.usage
  | some p =>
    have shape := ready.parentShape p rfl
    have copied := inheritRules_copy color allocs blank.empty blank.none shape.toTreeShape
    unfold inheritRuleset
    dsimp only
    rcases copied with ⟨e, failed⟩ | ⟨child, done, tree, stack, masks, hierarchy, usage⟩
    · split
      · rename_i shown
        rw [shown] at failed
        cases failed
        exact ⟨_, _, _, rfl, .inl ⟨⟨e, rfl⟩, rfl⟩⟩
      · rename_i shown
        rw [shown] at failed
        cases failed
    · split
      · rename_i shown
        rw [shown] at done
        cases done
      · rename_i child' allocs₁ shown
        rw [shown] at done
        cases done
        have length : child.numLayers = p.numLayers + 1 := by
          unfold LandlockRuleset.numLayers
          rw [masks, blank.masks, List.length_replicate]
          rfl
        have room : ¬ child.numLayers ≤ p.numLayers := by omega
        obtain ⟨x, isNode⟩ := Option.ne_none_iff_exists'.mp shape.in_hierarchy
        obtain ⟨node, here, used⟩ := ready.live x isNode
        have other : x ≠ newHierarchy := by
          rintro rfl
          rw [ready.fresh] at here
          cases here
        unfold inheritHierarchy getHierarchy
        have fresh : newHierarchy ≠ x := other.symm
        simp only [if_neg room, isNode, Heap.get_set, if_neg other, here, Option.map_some,
          if_neg fresh, if_true]
        refine ⟨_, _, _, rfl, .inr ⟨_, rfl, ⟨?_, ?_, ?_, ?_, ?_⟩, ?_⟩⟩
        · exact ⟨tree.ordered, tree.counted, tree.bounded⟩
        · exact stack
        · change p.fsAccessMasks ++ child.fsAccessMasks.drop p.numLayers = p.fsAccessMasks ++ [0]
          congr 1
          have one : (masksOf (some p)).length = p.numLayers := rfl
          rw [masks, blank.masks, List.drop_replicate, one, Nat.add_sub_cancel_left]
          rfl
        · exact hierarchy.trans blank.hierarchy
        · exact usage.trans blank.usage
        · intro y
          have isLinked : linked hs (hierarchyOf (some p)) newHierarchy =
              (hs.set x { node with usage := node.usage + 1 }).set newHierarchy
                { parent := some x, usage := 1 } := by
            unfold linked hierarchyOf
            simp only [Option.bind_some, isNode, here]
          rw [isLinked]
          simp only [Heap.get_set]
          by_cases atN : y = newHierarchy
          · rw [if_pos atN, if_pos atN]
          · simp only [if_neg atN]

/-- Both parts of a merge fail without a warning, or the domain is made. -/
theorem buildDomain_effect (color : RbInsertColor) (allocs : List Bool)
    (ready : Mergeable hs parent ruleset newHierarchy)
    (limit : (masksOf parent).length + 1 ≤ landlockMaxNumLayers)
    (blank : Blank newDom (masksOf parent).length newHierarchy) :
    ∃ result hs', buildDomain color (hs.set newHierarchy { parent := none, usage := 1 }) parent
        ruleset newDom newHierarchy allocs = some (result, hs') ∧
      ((∃ e, result = .error (.err e)) ∧ (∀ x, hs'.get x = hs.get x) ∨
        ∃ dom, result = .ok dom ∧ Merged parent ruleset dom newHierarchy ∧
          ∀ x, hs'.get x = (linked hs (hierarchyOf parent) newHierarchy).get x) := by
  obtain ⟨result, hs₁, allocs₁, inherits, outcome⟩ := inheritRuleset_effect color allocs ready blank
  unfold buildDomain
  rw [inherits]
  rcases outcome with ⟨⟨e, rfl⟩, rfl⟩ | ⟨child, rfl, inherited, reads⟩
  · obtain ⟨hs', put, same⟩ := putHierarchy_single ready.fresh
    dsimp only
    unfold freeRuleset
    rw [blank.hierarchy, put]
    exact ⟨_, _, rfl, .inl ⟨⟨e, rfl⟩, same⟩⟩
  · dsimp only
    have layers : child.numLayers = (masksOf parent).length + 1 := by
      unfold LandlockRuleset.numLayers
      rw [inherited.masks, List.length_append]
      rfl
    have in_hierarchy : child.hierarchy ≠ none := by
      rw [inherited.hierarchy]
      exact Option.some_ne_none _
    have stacked : ∀ k layers, layersAt child k = some layers →
        Stacked (masksOf parent).length layers := by
      intro k layers here
      rw [inherited.stack] at here
      cases isParent : parent with
      | none =>
        rw [isParent] at here
        cases here
      | some p =>
        rw [isParent] at here
        exact stacked_layersAt (ready.parentShape p isParent) here
    have merged := mergeRuleset_effect color allocs₁ inherited.shape in_hierarchy layers limit
      stacked ready.rulesetShape
    rcases merged with ⟨e, failed⟩ | ⟨dom, done, one⟩
    · obtain ⟨hs', put, same⟩ := putHierarchy_linked ready.fresh ready.live reads
      split
      · rename_i shown
        rw [shown] at failed
        cases failed
        unfold freeRuleset
        rw [inherited.hierarchy, put]
        exact ⟨_, _, rfl, .inl ⟨⟨e, rfl⟩, same⟩⟩
      · rename_i shown
        rw [shown] at failed
        cases failed
    · split
      · rename_i shown
        rw [shown] at done
        cases done
      · rename_i dom' _ shown
        rw [shown] at done
        cases done
        obtain ⟨mask, isMask⟩ := List.length_eq_one_iff.mp ready.rulesetShape.one_mask
        have masks : dom.fsAccessMasks = masksOf parent ++ ruleset.fsAccessMasks := by
          rw [one.masks, layers, inherited.masks, isMask, Nat.add_sub_cancel,
            List.set_append_right _ _ (Nat.le_refl _), Nat.sub_self]
          rfl
        have count : dom.numLayers = (masksOf parent).length + 1 := by
          unfold LandlockRuleset.numLayers
          rw [masks, isMask, List.length_append]
          rfl
        have stack : ∀ k, layersAt dom k = stackedOn ((masksOf parent).length + 1)
            (parentLayersAt parent k) (layersAt ruleset k) := by
          intro k
          rw [one.stack, layers, inherited.stack]
        refine ⟨_, _, rfl, .inr ⟨dom, rfl, ⟨⟨one.shape, ?_, ?_, ?_, ?_⟩, stack, masks,
          one.hierarchy.trans inherited.hierarchy, one.usage.trans inherited.usage⟩, reads⟩⟩
        · rw [one.hierarchy]
          exact in_hierarchy
        · omega
        · omega
        · rw [count]
          refine (rules_iff one.shape).mpr fun k layers here => ?_
          rw [stack, ← inherited.stack] at here
          exact stacked_stackedOn limit (fun layers old => stacked k layers old) here

theorem mergeDomain_eq (color : RbInsertColor) (allocs : List Bool) :
    mergeDomain color hs parent ruleset newHierarchy allocs =
      if landlockMaxNumLayers ≤ (masksOf parent).length then some (.error (.err .E2BIG), hs)
      else
        match createRuleset ((masksOf parent).length + 1) allocs with
        | (.error e, _) => some (.error e, hs)
        | (.ok newDom, allocs) =>
          match kzalloc allocs with
          | (false, _) => (freeRuleset hs newDom).map fun hs => (.error (.err .ENOMEM), hs)
          | (true, allocs) =>
            buildDomain color (hs.set newHierarchy { parent := none, usage := 1 }) parent ruleset
              { newDom with hierarchy := some newHierarchy } newHierarchy allocs := by
  cases parent with
  | none => rfl
  | some parent => rfl

/-- `landlock_merge_ruleset` never faults and never warns; a failed one leaves the hierarchy
as it reads. -/
theorem mergeDomain_effect (color : RbInsertColor) (allocs : List Bool)
    (ready : Mergeable hs parent ruleset newHierarchy) :
    ∃ result hs', mergeDomain color hs parent ruleset newHierarchy allocs = some (result, hs') ∧
      ((∃ e, result = .error (.err e)) ∧ (∀ x, hs'.get x = hs.get x) ∨
        ∃ dom, result = .ok dom ∧ Merged parent ruleset dom newHierarchy ∧
          ∀ x, hs'.get x = (linked hs (hierarchyOf parent) newHierarchy).get x) := by
  rw [mergeDomain_eq]
  by_cases full : landlockMaxNumLayers ≤ (masksOf parent).length
  · rw [if_pos full]
    exact ⟨_, _, rfl, .inl ⟨⟨_, rfl⟩, fun _ => rfl⟩⟩
  · rw [if_neg full]
    unfold createRuleset
    split
    · rename_i shown
      split at shown
      · cases shown
        exact ⟨_, _, rfl, .inl ⟨⟨_, rfl⟩, fun _ => rfl⟩⟩
      · cases shown
    · rename_i newDom allocs₁ shown
      split at shown
      · cases shown
      · cases shown
        split
        · exact ⟨_, _, rfl, .inl ⟨⟨_, rfl⟩, fun _ => rfl⟩⟩
        · exact buildDomain_effect color _ ready (by omega) ⟨rfl, rfl, rfl, rfl, rfl⟩

end Domains

end Ksrc.Guarantees.LandlockMerge

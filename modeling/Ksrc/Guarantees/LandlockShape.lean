import Ksrc.Source.LandlockRuleset

/-!
# What the rulesets and domains of Landlock look like, and what an insertion does

Source: `landlock/src/ruleset.c`. `insert_rule` serves three callers. Its effect is that the
rule of one object gets a new layer stack and nothing else changes; when a caller keeps to
its role, none of the warnings is reached.
-/
namespace Ksrc.Guarantees.LandlockShape

open Library Library.SearchTree Source

/-- What holds of the tree of a ruleset or a domain. -/
structure TreeShape (r : LandlockRuleset) : Prop where
  ordered : Ordered LandlockRule.object r.root
  counted : r.numRules = r.root.inorder.length
  bounded : r.numRules ≤ landlockMaxNumRules

/-- The layers of a rule of a ruleset. -/
def Unstacked (layers : List LandlockLayer) : Prop := ∃ access, layers = [⟨0, access⟩]

/-- The layers of a rule of a domain with `n` layers. -/
structure Stacked (n : Nat) (layers : List LandlockLayer) : Prop where
  some_layer : layers ≠ []
  ascending : layers.Pairwise fun a b => a.level.toNat < b.level.toNat
  within : ∀ layer ∈ layers, 1 ≤ layer.level.toNat ∧ layer.level.toNat ≤ n

structure RulesetShape (r : LandlockRuleset) : Prop extends TreeShape r where
  plain : r.hierarchy = none
  one_mask : r.numLayers = 1
  rules : ∀ rule ∈ r.root.inorder, Unstacked rule.layers

structure DomainShape (d : LandlockRuleset) : Prop extends TreeShape d where
  in_hierarchy : d.hierarchy ≠ none
  some_mask : 1 ≤ d.numLayers
  mask_limit : d.numLayers ≤ landlockMaxNumLayers
  rules : ∀ rule ∈ d.root.inorder, Stacked d.numLayers rule.layers

/-- A domain that is as `landlock_merge_ruleset` makes them. -/
structure Domain where
  ruleset : LandlockRuleset
  shape : DomainShape ruleset

/-- The layer stack a ruleset or domain has for an object. -/
def layersAt (r : LandlockRuleset) (object : Nat) : Option (List LandlockLayer) :=
  (r.root.find LandlockRule.object object).map LandlockRule.layers

variable {r r' : LandlockRuleset} {object : Nat} {layers : List LandlockLayer}

theorem find_of_layersAt (here : layersAt r object = some layers) :
    r.root.find LandlockRule.object object = some ⟨object, layers⟩ := by
  obtain ⟨rule, found, rfl⟩ := Option.map_eq_some_iff.mp here
  have same := (find_some found).2
  rw [found, ← same]

theorem layersAt_of_mem (shape : TreeShape r) {rule : LandlockRule}
    (member : rule ∈ r.root.inorder) : layersAt r rule.object = some rule.layers := by
  unfold layersAt
  rw [find_of_mem shape.ordered member]
  rfl

theorem mem_of_layersAt (here : layersAt r object = some layers) :
    (⟨object, layers⟩ : LandlockRule) ∈ r.root.inorder :=
  (find_some (find_of_layersAt here)).1

/-- All rules are of a kind when the layer stacks of all objects are. -/
theorem rules_iff (shape : TreeShape r) {p : List LandlockLayer → Prop} :
    (∀ rule ∈ r.root.inorder, p rule.layers) ↔
      ∀ object layers, layersAt r object = some layers → p layers := by
  constructor
  · intro all object layers here
    exact all _ (mem_of_layersAt here)
  · intro all rule member
    exact all _ _ (layersAt_of_mem shape member)

/-- A change of the layer stack of one object. -/
structure Placed (r r' : LandlockRuleset) (object : Nat) (layers : List LandlockLayer) : Prop where
  shape : TreeShape r → TreeShape r'
  stack : ∀ k, layersAt r' k = if k = object then some layers else layersAt r k
  masks : r'.fsAccessMasks = r.fsAccessMasks
  hierarchy : r'.hierarchy = r.hierarchy
  usage : r'.usage = r.usage

theorem placed_update {f : LandlockRule → LandlockRule} {this : LandlockRule}
    (keeps : ∀ rule, (f rule).object = rule.object)
    (found : r.root.find LandlockRule.object object = some this) :
    Placed r { r with root := r.root.update LandlockRule.object object f } object
      (f this).layers := by
  constructor
  · intro shape
    constructor
    · exact ordered_update keeps shape.ordered
    · exact shape.counted.trans (length_update keeps).symm
    · exact shape.bounded
  · intro k
    unfold layersAt
    rw [find_update keeps, found]
    split <;> rfl
  · rfl
  · rfl
  · rfl

theorem placed_link (color : RbInsertColor) (room : r.numRules < landlockMaxNumRules)
    (shape : TreeShape r) (absent : r.root.find LandlockRule.object object = none)
    (layers : List LandlockLayer) :
    Placed r { r with
      root := color.run (r.root.link LandlockRule.object ⟨object, layers⟩)
      numRules := r.numRules + 1 } object layers := by
  have ordered : Ordered LandlockRule.object (r.root.link LandlockRule.object ⟨object, layers⟩) :=
    ordered_link shape.ordered ((find_none shape.ordered).mp absent)
  constructor
  · intro _
    constructor
    · exact ordered_run color ordered
    · have length : (r.root.link LandlockRule.object ⟨object, layers⟩).inorder.length =
          (⟨object, layers⟩ :: r.root.inorder : List LandlockRule).length :=
        (link_perm _ _).length_eq
      rw [List.length_cons] at length
      rw [color.inorder_run, length, shape.counted]
    · exact room
  · intro k
    unfold layersAt
    rw [find_run color ordered, find_link (by exact absent)]
    split <;> rfl
  · rfl
  · rfl
  · rfl

/-- The stack an insertion leaves where it succeeds. -/
def combine (old : Option (List LandlockLayer)) (layers : List LandlockLayer) :
    List LandlockLayer :=
  match old, layers with
  | some (this :: _), [layer] =>
    if layer.level = 0 then [{ this with access := this.access ||| layer.access }]
    else (old.getD []) ++ [layer]
  | _, _ => layers

/-- What a caller of `insert_rule` keeps to when the object has a rule. -/
inductive Role (old layers : List LandlockLayer) : Prop
  | extend (mask access : U16) (unstacked : old = [⟨0, mask⟩]) (request : layers = [⟨0, access⟩])
  | stack (layer : LandlockLayer) (one : layers = [layer]) (real : layer.level ≠ 0)
      (some_layer : old ≠ []) (stacked : ∀ l ∈ old, l.level ≠ 0)
      (room : old.length < landlockMaxNumLayers)

theorem createRule_cases (object : Nat) (layers : List LandlockLayer)
    (newLayer : Option LandlockLayer) (allocs : List Bool)
    (room : newLayer ≠ none → layers.length < landlockMaxNumLayers) :
    (createRule object layers newLayer allocs).1 = .error (.err .ENOMEM) ∨
      (createRule object layers newLayer allocs).1 = .ok ⟨object, layers ++ newLayer.toList⟩ := by
  have passes : ¬ (newLayer.isSome ∧ landlockMaxNumLayers ≤ layers.length) := by
    rintro ⟨isSome, full⟩
    have less := room (Option.isSome_iff_ne_none.mp isSome)
    omega
  unfold createRule
  rw [if_neg passes]
  split
  · exact .inl rfl
  · exact .inr rfl

theorem layersAt_none (absent : r.root.find LandlockRule.object object = none) :
    layersAt r object = none := by
  unfold layersAt
  rw [absent]
  rfl

theorem layersAt_some {this : LandlockRule}
    (found : r.root.find LandlockRule.object object = some this) :
    layersAt r object = some this.layers := by
  unfold layersAt
  rw [found]
  rfl

/-- An insertion fails without a warning, or changes the stack of its object. -/
def Inserts (r : LandlockRuleset) (object : Nat) (layers : List LandlockLayer)
    (result : Except Refusal LandlockRuleset) : Prop :=
  (∃ e, result = .error (.err e)) ∨
    ∃ r', result = .ok r' ∧ Placed r r' object (combine (layersAt r object) layers)

theorem insertRule_absent (color : RbInsertColor) (allocs : List Bool) (shape : TreeShape r)
    (absent : r.root.find LandlockRule.object object = none) :
    Inserts r object layers (insertRule color r (some object) layers allocs).1 := by
  unfold Inserts insertRule
  rw [layersAt_none absent]
  simp only [absent]
  by_cases full : landlockMaxNumRules ≤ r.numRules
  · rw [if_pos full]
    exact .inl ⟨.E2BIG, rfl⟩
  · rw [if_neg full]
    rcases createRule_cases object layers none allocs (fun some => absurd rfl some) with
      failed | made
    · left
      split
      · rename_i e _ shown
        rw [shown] at failed
        cases failed
        exact ⟨.ENOMEM, rfl⟩
      · rename_i shown
        rw [shown] at failed
        cases failed
    · right
      rw [Option.toList_none, List.append_nil] at made
      split
      · rename_i shown
        rw [shown] at made
        cases made
      · rename_i newRule _ shown
        rw [shown] at made
        cases made
        exact ⟨_, rfl, placed_link color (Nat.lt_of_not_le full) shape absent layers⟩

theorem insertRule_extend (color : RbInsertColor) (allocs : List Bool) {this : LandlockRule}
    {mask access : U16} (found : r.root.find LandlockRule.object object = some this)
    (unstacked : this.layers = [⟨0, mask⟩]) :
    Inserts r object [⟨0, access⟩] (insertRule color r (some object) [⟨0, access⟩] allocs).1 := by
  have first : this.layer0 = ⟨0, mask⟩ := by
    unfold LandlockRule.layer0
    rw [unstacked]
    rfl
  have placed := placed_update (f := LandlockRule.extend access) (fun _ => rfl) found
  have result : (this.extend access).layers = combine (some this.layers) [⟨0, access⟩] := by
    unfold LandlockRule.extend
    rw [first, unstacked]
    rfl
  rw [result, ← layersAt_some found] at placed
  right
  refine ⟨_, ?_, placed⟩
  simp only [insertRule, found, unstacked, first, if_true, List.length_singleton, ne_eq,
    not_true, if_false]

theorem insertRule_stack (color : RbInsertColor) (allocs : List Bool) {this : LandlockRule}
    {layer : LandlockLayer} (found : r.root.find LandlockRule.object object = some this)
    (real : layer.level ≠ 0) (some_layer : this.layers ≠ [])
    (stacked : ∀ l ∈ this.layers, l.level ≠ 0)
    (room : this.layers.length < landlockMaxNumLayers) :
    Inserts r object [layer] (insertRule color r (some object) [layer] allocs).1 := by
  obtain ⟨head, tail, shown⟩ := List.exists_cons_of_ne_nil some_layer
  have first : this.layer0.level ≠ 0 := by
    unfold LandlockRule.layer0
    rw [shown]
    exact stacked head (by rw [shown]; exact List.mem_cons_self)
  have result : this.layers ++ [layer] = combine (layersAt r object) [layer] := by
    rw [layersAt_some found, shown]
    unfold combine
    simp only [if_neg real, Option.getD_some]
  unfold Inserts insertRule
  rw [← result]
  simp only [found, if_neg real, if_neg first]
  rcases createRule_cases object this.layers (some layer) allocs (fun _ => room) with
    failed | made
  · left
    split
    · rename_i e _ shown
      rw [shown] at failed
      cases failed
      exact ⟨.ENOMEM, rfl⟩
    · rename_i shown
      rw [shown] at failed
      cases failed
  · right
    split
    · rename_i shown
      rw [shown] at made
      cases made
    · rename_i newRule _ shown
      rw [shown] at made
      cases made
      exact ⟨_, rfl, placed_update (f := fun this => { this with layers := _ }) (fun _ => rfl) found⟩

/-- The effect of an insertion whose caller keeps to its role. -/
theorem insertRule_effect (color : RbInsertColor) (allocs : List Bool) (shape : TreeShape r)
    (role : ∀ old, layersAt r object = some old → Role old layers) :
    Inserts r object layers (insertRule color r (some object) layers allocs).1 := by
  cases found : r.root.find LandlockRule.object object with
  | none => exact insertRule_absent color allocs shape found
  | some this =>
    rcases role _ (layersAt_some found) with ⟨mask, access, unstacked, rfl⟩ |
      ⟨layer, rfl, real, some_layer, stacked, room⟩
    · exact insertRule_extend color allocs found unstacked
    · exact insertRule_stack color allocs found real some_layer stacked room

end Ksrc.Guarantees.LandlockShape

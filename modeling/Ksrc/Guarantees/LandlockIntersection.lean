import Ksrc.Guarantees.LandlockCalls
import Ksrc.Guarantees.LandlockPathAccess

/-!
# A merge is an intersection

Source: `landlock/src/ruleset.c` (`landlock_merge_ruleset`), `landlock/src/fs.c`. The lower
layers of a merged domain handle and grant what the layers of its parent do, and the top
layer what the ruleset does alone.
-/
namespace Ksrc.Guarantees.LandlockIntersection

open Library Source LandlockShape LandlockMerge
  LandlockReferences LandlockOwners
  LandlockCalls LandlockMasks
  LandlockPathAccess

variable {parent : Option LandlockRuleset} {ruleset dom one : LandlockRuleset}
  {newHierarchy soloHierarchy : Nat} {vfs : Vfs} {path : VfsPath} {request : U16} {layer n : Nat}
  {right : Right} {dentry : Dentry} {old new : Option (List LandlockLayer)}

/-- Whether the stack of an object grants a right in a layer. -/
def StackGrants (stack : Option (List LandlockLayer)) (layer : Nat) (right : Right) : Prop :=
  ∃ layers, stack = some layers ∧ LayersGrant layers layer right

theorem ruleGrants_iff : RuleGrants (findRule dom dentry) layer right ↔
    ∃ inode object, dentry.inode = some inode ∧ inode.object = some object ∧
      StackGrants (layersAt dom object) layer right := by
  unfold RuleGrants StackGrants findRule layersAt landlockFindRule
  constructor
  · rintro ⟨rule, found, grants⟩
    cases isInode : dentry.inode with
    | none =>
      simp only [isInode] at found
      cases found
    | some inode =>
      cases isObject : inode.object with
      | none =>
        simp only [isInode, isObject] at found
        cases found
      | some object =>
        simp only [isInode, isObject] at found
        exact ⟨inode, object, rfl, isObject, rule.layers, by rw [found]; rfl, grants⟩
  · rintro ⟨inode, object, isInode, isObject, layers, here, grants⟩
    obtain ⟨rule, found, rfl⟩ := Option.map_eq_some_iff.mp here
    simp only [isInode, isObject]
    exact ⟨rule, found, grants⟩

/-- The lower layers of a stack are those of the old one. -/
theorem stackGrants_lower (stacked : ∀ layers, old = some layers → Stacked n layers)
    (limit : n + 1 ≤ landlockMaxNumLayers) (lower : layer < n) :
    StackGrants (stackedOn (n + 1) old new) layer right ↔ StackGrants old layer right := by
  have top := level_toNat limit
  unfold StackGrants stackedOn
  split
  · rename_i l rest
    simp only [Option.some.injEq, exists_eq_left']
    unfold LayersGrant
    constructor
    · rintro ⟨l', member, level, access⟩
      rcases List.mem_append.mp member with member | isTop
      · cases isOld : old with
        | none =>
          rw [isOld] at member
          cases member
        | some layers =>
          rw [isOld] at member
          exact ⟨layers, rfl, l', member, level, access⟩
      · rw [List.mem_singleton.mp isTop, top] at level
        omega
    · rintro ⟨layers, rfl, l', member, level, access⟩
      exact ⟨l', List.mem_append_left _ member, level, access⟩
  · exact Iff.rfl

/-- The top layer of a stack is that of the ruleset. -/
theorem stackGrants_top (stacked : ∀ layers, old = some layers → Stacked n layers)
    (limit : n + 1 ≤ landlockMaxNumLayers) :
    StackGrants (stackedOn (n + 1) old new) n right ↔
      ∃ l rest, new = some (l :: rest) ∧ l.access.getLsbD right = true := by
  have top := level_toNat limit
  have below : ∀ layers, old = some layers → ∀ l ∈ layers, l.level.toNat ≠ n + 1 := by
    intro layers isOld l member
    have within := (stacked layers isOld).within l member
    omega
  unfold StackGrants stackedOn
  split
  · rename_i l rest
    simp only [Option.some.injEq, exists_eq_left', List.cons.injEq]
    constructor
    · rintro ⟨l', member, level, access⟩
      rcases List.mem_append.mp member with member | isTop
      · cases isOld : old with
        | none =>
          rw [isOld] at member
          cases member
        | some layers =>
          rw [isOld] at member
          exact absurd level (below layers isOld l' member)
      · rw [List.mem_singleton.mp isTop] at access
        exact ⟨l, rest, ⟨rfl, rfl⟩, access⟩
    · rintro ⟨l', rest', ⟨rfl, rfl⟩, access⟩
      exact ⟨_, List.mem_append_right _ (List.mem_singleton.mpr rfl), top, access⟩
  · rename_i noRule
    constructor
    · rintro ⟨layers, isOld, l, member, level, access⟩
      exact absurd level (below layers isOld l member)
    · rintro ⟨l, rest, shown, access⟩
      exact absurd shown (noRule l rest)

/-- The layers of the parent. -/
def lowerLayers (parent : Option LandlockRuleset) : Nat := (masksOf parent).length

theorem parent_stacked (shape : ∀ p, parent = some p → DomainShape p) (object : Nat) :
    ∀ layers, parentLayersAt parent object = some layers → Stacked (lowerLayers parent) layers := by
  intro layers here
  cases isParent : parent with
  | none =>
    rw [isParent] at here
    cases here
  | some p =>
    rw [isParent] at here
    exact stacked_layersAt (shape p isParent) here

theorem merged_limit (merged : Merged parent ruleset dom newHierarchy)
    (plain : RulesetShape ruleset) : lowerLayers parent + 1 ≤ landlockMaxNumLayers := by
  have limit := merged.shape.mask_limit
  have single := plain.one_mask
  unfold LandlockRuleset.numLayers at limit single
  rw [merged.masks, List.length_append, single] at limit
  exact limit

theorem merged_granted_lower (merged : Merged parent ruleset dom newHierarchy)
    (shape : ∀ p, parent = some p → DomainShape p) (plain : RulesetShape ruleset)
    {p : LandlockRuleset} (isParent : parent = some p) (lower : layer < p.numLayers) :
    Granted vfs dom path layer right ↔ Granted vfs p path layer right := by
  subst isParent
  have grants : ∀ dentry, RuleGrants (findRule dom dentry) layer right ↔
      RuleGrants (findRule p dentry) layer right := by
    intro dentry
    rw [ruleGrants_iff, ruleGrants_iff]
    simp only [merged.stack]
    have each : ∀ object, StackGrants (stackedOn ((masksOf (some p)).length + 1)
        (parentLayersAt (some p) object) (layersAt ruleset object)) layer right ↔
        StackGrants (layersAt p object) layer right := fun object =>
      stackGrants_lower (parent_stacked shape object) (merged_limit merged plain) lower
    simp only [each]
  unfold Granted
  simp only [grants]

/-- Whether the ruleset itself has a rule that grants a right on the way up. -/
def RulesetGrants (vfs : Vfs) (ruleset : LandlockRuleset) (path : VfsPath) (right : Right) : Prop :=
  ∃ d ∈ LandlockWalks.visited vfs path, ∃ inode object, (vfs.dentries d).inode = some inode ∧
    inode.object = some object ∧
    ∃ l rest, layersAt ruleset object = some (l :: rest) ∧ l.access.getLsbD right = true

theorem merged_granted_top (merged : Merged parent ruleset dom newHierarchy)
    (shape : ∀ p, parent = some p → DomainShape p) (plain : RulesetShape ruleset) :
    Granted vfs dom path (lowerLayers parent) right ↔ RulesetGrants vfs ruleset path right := by
  unfold Granted RulesetGrants
  have each : ∀ object, StackGrants (layersAt dom object) (lowerLayers parent) right ↔
      ∃ l rest, layersAt ruleset object = some (l :: rest) ∧ l.access.getLsbD right = true := by
    intro object
    rw [merged.stack]
    exact stackGrants_top (parent_stacked shape object) (merged_limit merged plain)
  simp only [ruleGrants_iff, each]

theorem merged_handles_lower (merged : Merged parent ruleset dom newHierarchy) {p : LandlockRuleset}
    (isParent : parent = some p) (lower : layer < p.numLayers) :
    LayerHandles dom layer right ↔ LayerHandles p layer right := by
  subst isParent
  have inside : layer < (masksOf (some p)).length := lower
  unfold LayerHandles
  rw [merged.masks, List.getElem?_append_left inside]
  exact Iff.rfl

theorem merged_handles_top (merged : Merged parent ruleset dom newHierarchy) :
    LayerHandles dom (lowerLayers parent) right ↔ LayerHandles ruleset 0 right := by
  unfold LayerHandles lowerLayers
  rw [merged.masks, List.getElem?_append_right (Nat.le_refl _), Nat.sub_self]

theorem handles_lt (handles : LayerHandles dom layer right) : layer < dom.numLayers := by
  obtain ⟨mask, here, -⟩ := handles
  exact (List.getElem?_eq_some_iff.mp here).1

theorem merged_numLayers (merged : Merged parent ruleset dom newHierarchy)
    (plain : RulesetShape ruleset) : dom.numLayers = lowerLayers parent + 1 := by
  have single := plain.one_mask
  unfold LandlockRuleset.numLayers at single ⊢
  rw [merged.masks, List.length_append, single]
  rfl

/-- What all layers of a merged domain ask for is what those of the parent ask for, and the
ruleset. -/
theorem merged_layers (vfs : Vfs) (path : VfsPath) (request : U16)
    (merged : Merged parent ruleset dom newHierarchy)
    (shape : ∀ p, parent = some p → DomainShape p) (plain : RulesetShape ruleset) :
    (∀ layer right, requests request right = true → LayerHandles dom layer right →
        Granted vfs dom path layer right) ↔
      (∀ p, parent = some p → ∀ layer right, requests request right = true →
        LayerHandles p layer right → Granted vfs p path layer right) ∧
      ∀ right, requests request right = true → LayerHandles ruleset 0 right →
        RulesetGrants vfs ruleset path right := by
  constructor
  · intro all
    constructor
    · intro p isParent layer right requested handles
      have lower := handles_lt handles
      exact (merged_granted_lower merged shape plain isParent lower).mp
        (all layer right requested ((merged_handles_lower merged isParent lower).mpr handles))
    · intro right requested handles
      exact (merged_granted_top merged shape plain).mp
        (all _ right requested ((merged_handles_top merged).mpr handles))
  · rintro ⟨below, top⟩ layer right requested handles
    have inside := handles_lt handles
    rw [merged_numLayers merged plain] at inside
    rcases Nat.lt_succ_iff_lt_or_eq.mp inside with lower | rfl
    · cases isParent : parent with
      | none =>
        rw [isParent] at lower
        cases lower
      | some p =>
        rw [isParent] at lower
        exact (merged_granted_lower merged shape plain isParent lower).mpr
          (below p isParent layer right requested
            ((merged_handles_lower merged isParent lower).mp handles))
    · exact (merged_granted_top merged shape plain).mpr
        (top right requested ((merged_handles_top merged).mp handles))

/-- The domain of a merge permits what the parent and the ruleset alone permit. -/
theorem merged_permits (merged : Merged parent ruleset dom newHierarchy)
    (shape : ∀ p, parent = some p → DomainShape p) (plain : RulesetShape ruleset)
    (alone : Merged none ruleset one soloHierarchy) :
    Permits vfs dom path request ↔
      (∀ p, parent = some p → Permits vfs p path request) ∧ Permits vfs one path request := by
  have solo := merged_layers vfs path request alone
    (fun _ none => by cases none) plain
  have both := merged_layers vfs path request merged shape plain
  unfold Permits
  rw [solo, both]
  by_cases exempt : Exempt vfs path
  · simp only [exempt, true_or, implies_true, and_self]
  · simp only [exempt, false_or, reduceCtorEq, false_implies, implies_true, true_and]

/-- The right to refer. -/
def refer : Right := ⟨13, by decide⟩

/-- Every layer handles the right to refer. -/
theorem handles_refer (inside : layer < dom.numLayers) : LayerHandles dom layer refer := by
  refine ⟨dom.fsAccessMasks.get ⟨layer, inside⟩, ?_, ?_⟩
  · rw [List.getElem?_eq_getElem inside]
    rfl
  · rw [BitVec.getLsbD_or]
    have denied : accessInitiallyDenied.getLsbD refer = true := by decide
    rw [denied, Bool.or_true]

/-- A granted right to refer is granted by a rule of every layer. -/
theorem permits_refer (permits : Permits vfs dom path request)
    (requested : requests request refer = true) :
    Exempt vfs path ∨ ∀ layer < dom.numLayers, Granted vfs dom path layer refer := by
  rcases permits with exempt | all
  · exact .inl exempt
  · exact .inr fun layer inside => all layer refer requested (handles_refer inside)

/-- What a successful merge of an owner makes. -/
theorem merge_made {color : RbInsertColor} {s s' : Callers} {parent : Option Nat}
    {ruleset newDom newHierarchy result : Nat} {allocs : List Bool} {r : LandlockRuleset}
    (ok : CallersOk s) (owned : (Call.merge parent ruleset newDom newHierarchy allocs).Owned s)
    (here : s.heap.rulesets.get ruleset = some r)
    (made : (Call.merge parent ruleset newDom newHierarchy allocs).run color s =
      some (.ok result, s')) :
    ∃ dom, s'.heap.rulesets.get newDom = some dom ∧
      Merged (parentAt s.heap parent) r dom newHierarchy := by
  have ready := merge_ready ok owned
  obtain ⟨answer, heap, done, effect⟩ := landlockMergeRuleset_effect color allocs ok.heap ready here
  unfold Call.run at made
  simp only [done] at made
  cases effect with
  | failed e hs reads heapOk =>
    cases made
  | made dom hs merged grown reads heapOk =>
    cases made
    exact ⟨dom, Heap.get_set_same _ _ _, merged⟩

/-- A merged domain grants a simple path request if and only if the parent, where there is one,
and the domain made of the ruleset alone grant it; and it grants the right to refer, outside
of exempted walks, only by a rule of each of its layers. -/
theorem merge_intersects (color : RbInsertColor) {s s' s'' : Callers}
    (reached : (landlockCalls color).Reachable Machine.free s) {parent : Option Nat}
    {ruleset newDom newHierarchy result soloDom soloHierarchy soloResult : Nat}
    {allocs soloAllocs : List Bool}
    (owned : (Call.merge parent ruleset newDom newHierarchy allocs).Owned s)
    (merged : (Call.merge parent ruleset newDom newHierarchy allocs).run color s =
      some (.ok result, s'))
    (soloOwned : (Call.merge none ruleset soloDom soloHierarchy soloAllocs).Owned s)
    (soloMerged : (Call.merge none ruleset soloDom soloHierarchy soloAllocs).run color s =
      some (.ok soloResult, s'')) :
    ∃ dom one, s'.heap.rulesets.get newDom = some dom ∧ s''.heap.rulesets.get soloDom = some one ∧
      ∀ (vfs : Vfs) (path : VfsPath) (request : U16),
        (checkAccessPath vfs dom path request = .ok () ↔
          (∀ p d, parent = some p → s.heap.rulesets.get p = some d →
            checkAccessPath vfs d path request = .ok ()) ∧
          checkAccessPath vfs one path request = .ok ()) ∧
        (checkAccessPath vfs dom path request = .ok () → requests request refer = true →
          Exempt vfs path ∨ ∀ layer < dom.numLayers, Granted vfs dom path layer refer) := by
  have ok := reachable_ok color reached
  have ready := merge_ready ok owned
  obtain ⟨r, here⟩ := ok.heap.owned ruleset ready.rulesetOwner
  obtain ⟨dom, atDom, isMerged⟩ := merge_made ok owned here merged
  obtain ⟨one, atOne, isAlone⟩ := merge_made ok soloOwned here soloMerged
  have plain := ready.rulesetShape r here
  have shape := (mergeable ok.heap ready here).parentShape
  refine ⟨dom, one, atDom, atOne, fun vfs path request => ⟨?_, ?_⟩⟩
  · rw [checkAccessPath_iff isMerged.shape, checkAccessPath_iff isAlone.shape,
      merged_permits isMerged shape plain isAlone]
    apply and_congr_left'
    constructor
    · intro all p d isParent atParent
      have isAt : parentAt s.heap parent = some d := by
        rw [isParent]
        exact atParent
      exact (checkAccessPath_iff (shape d isAt) path request).mpr (all d isAt)
    · intro all d isAt
      obtain ⟨p, isParent, atParent⟩ := Option.bind_eq_some_iff.mp isAt
      exact (checkAccessPath_iff (shape d isAt) path request).mp (all p d isParent atParent)
  · intro granted requested
    exact permits_refer ((checkAccessPath_iff isMerged.shape path request).mp granted) requested

/-- A ruleset with a rule for reading, in a domain of its own. -/
def oneDomain : List Call :=
  [.create 5 100 [], .insert 100 7 4 [], .merge none 100 101 200 []]

def withOneDomain : Callers := ((landlockCalls .id).exec noCallers oneDomain).getD noCallers

def mergedAgain : Callers :=
  (((Call.merge (some 101) 100 102 201 []).run .id withOneDomain).map Prod.snd).getD noCallers

def mergedAlone : Callers :=
  (((Call.merge none 100 102 201 []).run .id withOneDomain).map Prod.snd).getD noCallers

theorem merge_intersects_twice :
    ∃ dom one, mergedAgain.heap.rulesets.get 102 = some dom ∧
      mergedAlone.heap.rulesets.get 102 = some one ∧
      ∀ (vfs : Vfs) (path : VfsPath) (request : U16),
        (checkAccessPath vfs dom path request = .ok () ↔
          (∀ p d, some 101 = some p → withOneDomain.heap.rulesets.get p = some d →
            checkAccessPath vfs d path request = .ok ()) ∧
          checkAccessPath vfs one path request = .ok ()) ∧
        (checkAccessPath vfs dom path request = .ok () → requests request refer = true →
          Exempt vfs path ∨ ∀ layer < dom.numLayers, Granted vfs dom path layer refer) := by
  have ran : (landlockCalls .id).exec noCallers oneDomain = some withOneDomain := rfl
  have owned : (Call.merge (some 101) 100 102 201 []).Owned withOneDomain := by decide
  have merged : (Call.merge (some 101) 100 102 201 []).run .id withOneDomain =
    some (.ok 102, mergedAgain) := rfl
  have soloOwned : (Call.merge none 100 102 201 []).Owned withOneDomain := by decide
  have soloMerged : (Call.merge none 100 102 201 []).run .id withOneDomain =
    some (.ok 102, mergedAlone) := rfl
  exact merge_intersects .id ⟨noCallers, rfl, Machine.exec_reaches ran⟩ owned merged soloOwned
    soloMerged

end Ksrc.Guarantees.LandlockIntersection

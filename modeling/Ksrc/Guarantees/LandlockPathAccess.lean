import Ksrc.Guarantees.LandlockMasks
import Ksrc.Guarantees.LandlockWalks

/-!
# A path request is granted layer by layer

Source: `landlock/src/fs.c` (`is_access_to_paths_allowed`, `check_access_path`). A simple
request is granted when each layer that handles a requested right finds a rule for it on the
way up. The walk may stop as soon as no layer denies anything.
-/
namespace Ksrc.Guarantees.LandlockPathAccess

open Library Library.SearchTree Source LandlockShape
  LandlockMasks LandlockWalks

/-- Whether some rule on the way up grants a right in a layer. -/
def Granted (vfs : Vfs) (dom : LandlockRuleset) (path : VfsPath) (layer : Nat) (right : Right) :
    Prop :=
  ∃ d ∈ visited vfs path, RuleGrants (findRule dom (vfs.dentries d)) layer right

/-- What the code exempts: a file that no user reaches by mounts, and a walk that ends at the
root of an internal mount. -/
def Exempt (vfs : Vfs) (path : VfsPath) : Prop :=
  (vfs.dentries path.dentry).isNouserOrPrivate = true ∨ ending vfs path = .disconnected true

/-- The layered specification of a path request. -/
def Permits (vfs : Vfs) (dom : LandlockRuleset) (path : VfsPath) (request : U16) : Prop :=
  Exempt vfs path ∨ ∀ layer right, requests request right = true → LayerHandles dom layer right →
    Granted vfs dom path layer right

variable {vfs : Vfs} {dom : LandlockRuleset} {path : VfsPath} {request : U16}
  {masks masks' : LayerMasks} {rule : LandlockRule} {dentry : Dentry}

theorem findRule_levels (shape : DomainShape dom) (found : findRule dom dentry = some rule) :
    LevelsOk rule.layers := by
  unfold findRule at found
  split at found
  · cases found
  · unfold landlockFindRule at found
    split at found
    · cases found
    · have stacked := shape.rules rule (find_some found).1
      intro layer member
      have within := stacked.within layer member
      exact ⟨within.1, within.2.trans shape.mask_limit⟩

/-- What a turn takes out of the masks. -/
theorem turn_cleared (request : U16) (shape : DomainShape dom) (dentry : Dentry) (masks : LayerMasks) :
    Cleared request (RuleGrants (findRule dom dentry)) masks
      (unmaskLayers (findRule dom dentry) request masks).2 :=
  unmaskLayers_cleared fun _ found => findRule_levels shape found

/-- What is still denied must be granted here or further up. -/
theorem cleared_forall {grants further : Nat → Right → Prop}
    (cleared : Cleared request grants masks masks') :
    (∀ layer right, requests request right = true → Denies masks' layer right →
        further layer right) ↔
      ∀ layer right, requests request right = true → Denies masks layer right →
        grants layer right ∨ further layer right := by
  constructor
  · intro all layer right requested denies
    by_cases granted : grants layer right
    · exact .inl granted
    · exact .inr (all layer right requested ((cleared layer right).mpr ⟨denies, by tauto⟩))
  · intro all layer right requested denies
    obtain ⟨before, not⟩ := (cleared layer right).mp denies
    rcases all layer right requested before with granted | above
    · exact absurd ⟨requested, granted⟩ not
    · exact above

theorem cleared_empty {grants : Nat → Right → Prop}
    (cleared : Cleared request grants masks masks') : isEmptyFor request masks' = true ↔
      ∀ layer right, requests request right = true → Denies masks layer right →
        grants layer right := by
  have turn : (∀ layer right, requests request right = true → Denies masks' layer right → False) ↔
      ∀ layer right, requests request right = true → Denies masks layer right →
        grants layer right ∨ False := cleared_forall cleared
  simp only [or_false] at turn
  rw [isEmptyFor_iff, ← turn]

theorem granted_parent {up : VfsPath} (ascends : ascend vfs path = .parent up) (layer : Nat)
    (right : Right) : Granted vfs dom path layer right ↔
      RuleGrants (findRule dom (vfs.dentries path.dentry)) layer right ∨
        Granted vfs dom up layer right := by
  unfold Granted
  rw [visited_parent ascends]
  simp only [List.mem_cons, exists_eq_or_imp]

theorem granted_end (ends : ∀ up, ascend vfs path ≠ .parent up) (layer : Nat) (right : Right) :
    Granted vfs dom path layer right ↔
      RuleGrants (findRule dom (vfs.dentries path.dentry)) layer right := by
  unfold Granted
  rw [visited_end ends]
  simp only [List.mem_singleton, exists_eq_left]

/-- The rules of a walk grant everything the masks deny. -/
def GrantsAll (vfs : Vfs) (dom : LandlockRuleset) (path : VfsPath) (request : U16)
    (masks : LayerMasks) : Prop :=
  ∀ layer right, requests request right = true → Denies masks layer right →
    Granted vfs dom path layer right

theorem grantsAll_parent {up : VfsPath} (ascends : ascend vfs path = .parent up)
    (cleared : Cleared request (RuleGrants (findRule dom (vfs.dentries path.dentry))) masks masks') :
    GrantsAll vfs dom up request masks' ↔ GrantsAll vfs dom path request masks := by
  unfold GrantsAll
  rw [cleared_forall cleared]
  simp only [granted_parent ascends]

theorem grantsAll_end (ends : ∀ up, ascend vfs path ≠ .parent up)
    (cleared : Cleared request (RuleGrants (findRule dom (vfs.dentries path.dentry))) masks masks') :
    isEmptyFor request masks' = true ↔ GrantsAll vfs dom path request masks := by
  rw [cleared_empty cleared]
  unfold GrantsAll
  simp only [granted_end ends]

/-- The walk of a simple request that is denied at first. -/
theorem accessWalk_simple (shape : DomainShape dom) (turns : Nat) (below : vfs.height path < turns)
    (before : isEmptyFor request masks = false) :
    (accessWalk vfs dom request 0 none none turns path
        { isDomCheck := false, accessMasked1 := request, accessMasked2 := 0, masks1 := masks
          masks2 := none }).1 = true ↔
      ending vfs path = .disconnected true ∨ GrantsAll vfs dom path request masks := by
  induction turns generalizing path masks with
  | zero => omega
  | succ turns ih =>
    have cleared := turn_cleared request shape (vfs.dentries path.dentry) masks
    have answer := unmaskLayers_fst (findRule dom (vfs.dentries path.dentry)) before
    unfold accessWalk referCheck
    dsimp only [unmaskLayersOpt]
    generalize unmaskLayers (findRule dom (vfs.dentries path.dentry)) request masks = out at *
    rw [Bool.and_true, answer]
    cases empty : isEmptyFor request out.2 with
    | true =>
      rw [if_pos rfl]
      have all : GrantsAll vfs dom path request masks := by
        intro layer right requested denies
        exact ⟨path.dentry, start_visited vfs path,
          (cleared_empty cleared).mp empty layer right requested denies⟩
      exact ⟨fun _ => .inr all, fun _ => rfl⟩
    | false =>
      rw [if_neg Bool.false_ne_true]
      cases ascends : ascend vfs path with
      | parent up =>
        dsimp only
        have lower := ascend_lower ascends
        rw [ih (by omega) empty, grantsAll_parent ascends cleared, ending_parent ascends]
      | realRoot =>
        have ends : ∀ up, ascend vfs path ≠ .parent up := fun up => by
          rw [ascends]
          exact Ascent.noConfusion
        rw [← grantsAll_end ends cleared, ending_end ends, ascends, empty]
        simp only [reduceCtorEq, false_or]
      | disconnected internal =>
        have ends : ∀ up, ascend vfs path ≠ .parent up := fun up => by
          rw [ascends]
          exact Ascent.noConfusion
        rw [← grantsAll_end ends cleared, ending_end ends, ascends, empty]
        simp only [Ascent.disconnected.injEq, Bool.false_eq_true, or_false]

/-- The masks after every rule of a list of dentries, with no early stop. -/
def unmaskAll (vfs : Vfs) (dom : LandlockRuleset) (request : U16) (dentries : List Nat)
    (masks : LayerMasks) : LayerMasks :=
  dentries.foldl (fun masks d =>
    match findRule dom (vfs.dentries d) with
    | none => masks
    | some rule => rule.layers.foldl (fun masks layer => unmaskLayer request layer masks) masks) masks

/-- The answer to a simple request of a walk that never stops before its end. -/
def accessWithoutStopping (vfs : Vfs) (dom : LandlockRuleset) (path : VfsPath) (request : U16)
    (masks : LayerMasks) : Bool :=
  (vfs.dentries path.dentry).isNouserOrPrivate || ending vfs path == .disconnected true ||
    isEmptyFor request (unmaskAll vfs dom request (visited vfs path) masks)

theorem foldl_unmaskLayer_cleared {layers : List LandlockLayer} (levels : LevelsOk layers) :
    Cleared request (LayersGrant layers) masks
      (layers.foldl (fun masks layer => unmaskLayer request layer masks) masks) := by
  induction layers generalizing masks with
  | nil =>
    apply cleared_refl
    rintro layer right - ⟨l, member, -⟩
    cases member
  | cons l rest ih =>
    obtain ⟨positive, limit⟩ := levels l List.mem_cons_self
    have first := unmaskLayer_cleared request masks positive limit
    have later : Cleared request (LayersGrant rest) (unmaskLayer request l masks)
        (rest.foldl (fun masks layer => unmaskLayer request layer masks)
          (unmaskLayer request l masks)) :=
      ih fun l' member => levels l' (List.mem_cons_of_mem _ member)
    rw [List.foldl_cons]
    refine (first.trans later).congr fun layer right => ?_
    unfold LayersGrant
    simp only [List.mem_cons, exists_eq_or_imp]

theorem unmaskAll_cleared (shape : DomainShape dom) (dentries : List Nat) :
    Cleared request (fun layer right => ∃ d ∈ dentries,
      RuleGrants (findRule dom (vfs.dentries d)) layer right) masks
      (unmaskAll vfs dom request dentries masks) := by
  induction dentries generalizing masks with
  | nil =>
    apply cleared_refl
    rintro layer right - ⟨d, member, -⟩
    cases member
  | cons d rest ih =>
    have first : Cleared request (RuleGrants (findRule dom (vfs.dentries d))) masks
        (match findRule dom (vfs.dentries d) with
          | none => masks
          | some rule =>
            rule.layers.foldl (fun masks layer => unmaskLayer request layer masks) masks) := by
      cases found : findRule dom (vfs.dentries d) with
      | none =>
        apply cleared_refl
        rintro layer right - ⟨r, shown, -⟩
        cases shown
      | some rule =>
        refine (foldl_unmaskLayer_cleared (findRule_levels shape found)).congr fun layer right => ?_
        unfold RuleGrants
        simp only [Option.some.injEq, exists_eq_left']
    refine (first.trans ih).congr fun layer right => ?_
    simp only [List.mem_cons, exists_eq_or_imp]

/-- Stopping early never changes an answer. -/
theorem accessWithoutStopping_iff (shape : DomainShape dom) (path : VfsPath) (request : U16)
    (masks : LayerMasks) : accessWithoutStopping vfs dom path request masks = true ↔
      Exempt vfs path ∨ GrantsAll vfs dom path request masks := by
  unfold accessWithoutStopping Exempt
  rw [Bool.or_eq_true, Bool.or_eq_true, beq_iff_eq, cleared_empty (unmaskAll_cleared shape _)]
  exact Iff.rfl

/-- A simple request with the masks `init_layer_masks` gives it. -/
theorem pathAccess_iff (shape : DomainShape dom) (path : VfsPath) (request : U16) :
    (isAccessToPathsAllowed vfs dom path (initLayerMasks dom request).1
        (initLayerMasks dom request).2 none 0 none none).1 = true ↔
      Exempt vfs path ∨ GrantsAll vfs dom path (initLayerMasks dom request).1
        (initLayerMasks dom request).2 := by
  have layers : ¬ dom.numLayers < 1 := by
    have some := shape.some_mask
    omega
  unfold isAccessToPathsAllowed
  by_cases zero : (initLayerMasks dom request).1 = 0
  · rw [if_pos ⟨zero, rfl⟩]
    refine ⟨fun _ => .inr ?_, fun _ => rfl⟩
    intro layer right requested
    unfold requests at requested
    rw [zero, BitVec.ofNat_eq_ofNat, BitVec.getLsbD_zero] at requested
    cases requested
  · rw [if_neg fun both => zero both.1]
    cases user : (vfs.dentries path.dentry).isNouserOrPrivate with
    | true =>
      rw [if_pos rfl]
      exact ⟨fun _ => .inl (.inl user), fun _ => rfl⟩
    | false =>
      rw [if_neg Bool.false_ne_true, if_neg layers]
      simp only [Option.isSome_none, Bool.false_eq_true, false_and, if_false, or_self, and_false,
        Option.map_none]
      rw [accessWalk_simple shape _ (Nat.lt_succ_self _)
        (initLayerMasks_some shape.mask_limit zero)]
      unfold Exempt
      simp only [user, Bool.false_eq_true, false_or]

theorem grantsAll_init (shape : DomainShape dom) (path : VfsPath) (request : U16) :
    GrantsAll vfs dom path (initLayerMasks dom request).1 (initLayerMasks dom request).2 ↔
      ∀ layer right, requests request right = true → LayerHandles dom layer right →
        Granted vfs dom path layer right := by
  unfold GrantsAll
  simp only [initLayerMasks_denies shape.mask_limit, initLayerMasks_requests shape.mask_limit]
  constructor
  · intro all layer right requested handles
    exact all layer right ⟨requested, layer, handles⟩ ⟨requested, handles⟩
  · intro all layer right requested handles
    exact all layer right handles.1 handles.2

/-- `check_access_path` decides the layered specification. -/
theorem checkAccessPath_iff (shape : DomainShape dom) (path : VfsPath) (request : U16) :
    checkAccessPath vfs dom path request = .ok () ↔ Permits vfs dom path request := by
  unfold checkAccessPath Permits
  rw [← grantsAll_init shape, ← pathAccess_iff shape]
  dsimp only
  split
  · rename_i granted
    simp only [granted]
  · rename_i denied
    simp only [denied, reduceCtorEq]

/-- A simple request is granted if and only if the code exempts its walk or each layer finds a
rule for each requested right it handles, and an early stop never changes the answer. -/
theorem pathAccess_layered (vfs : Vfs) (dom : Domain) (path : VfsPath) (request : U16) :
    ((isAccessToPathsAllowed vfs dom.ruleset path (initLayerMasks dom.ruleset request).1
        (initLayerMasks dom.ruleset request).2 none 0 none none).1 = true ↔
      Exempt vfs path ∨ ∀ layer right, requests request right = true →
        LayerHandles dom.ruleset layer right → Granted vfs dom.ruleset path layer right) ∧
    (isAccessToPathsAllowed vfs dom.ruleset path (initLayerMasks dom.ruleset request).1
        (initLayerMasks dom.ruleset request).2 none 0 none none).1 =
      accessWithoutStopping vfs dom.ruleset path (initLayerMasks dom.ruleset request).1
        (initLayerMasks dom.ruleset request).2 := by
  constructor
  · rw [pathAccess_iff dom.shape, grantsAll_init dom.shape]
  · rw [Bool.eq_iff_iff, pathAccess_iff dom.shape, accessWithoutStopping_iff dom.shape]

end Ksrc.Guarantees.LandlockPathAccess

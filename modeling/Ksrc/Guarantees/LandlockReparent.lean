import Ksrc.Guarantees.LandlockIntersection
import Ksrc.Guarantees.LandlockRename
import Ksrc.Guarantees.LandlockSystem

/-!
# A layer that does not handle the right to refer

Source: `landlock/src/fs.c` (`ACCESS_INITIALLY_DENIED`, `landlock_append_fs_rule`,
`current_check_refer_path`). Every layer denies the right to refer at first. Where its ruleset
did not list the right, none of its rules grants it, and what is denied stays denied to the end
of every walk.
-/
namespace Ksrc.Guarantees.LandlockReparent

open Library Source LandlockShape LandlockMasks
  LandlockWalks LandlockPathAccess
  LandlockIntersection LandlockRefer
  LandlockRename LandlockSystem

variable {vfs : Vfs} {dom : LandlockRuleset} {path : VfsPath} {layer : Nat} {right : Right}
  {request1 request2 : U16} {masks : LayerMasks} {child1 child2 : Option ChildAccess}
  {s : AccessWalk} {turns mnt dir : Nat} {handled : U16}

/-- No rule grants a right in a layer. -/
def Ungranted (dom : LandlockRuleset) (layer : Nat) (right : Right) : Prop :=
  ∀ dentry, ¬ RuleGrants (findRule dom dentry) layer right

theorem ungranted_of_listed (listed : ReferListed dom) {mask : U16}
    (isLayer : dom.fsAccessMasks[layer]? = some mask) (unlisted : requests mask refer = false) :
    Ungranted dom layer refer := by
  intro dentry grants
  obtain ⟨inode, object, -, -, layers, here, l, member, level, access⟩ := ruleGrants_iff.mp grants
  obtain ⟨mask', isMask, bit⟩ := listed object layers here l member access
  rw [level, Nat.add_sub_cancel, isLayer] at isMask
  cases isMask
  have absent : referBit mask = false := unlisted
  rw [absent] at bit
  cases bit

section Stuck

/-- A turn takes nothing out of what no rule grants. -/
theorem unmask_stuck (shape : DomainShape dom) (ungranted : Ungranted dom layer right)
    (dentry : Dentry) (request : U16) (denies : Denies masks layer right) :
    Denies (unmaskLayers (findRule dom dentry) request masks).2 layer right :=
  (turn_cleared request shape dentry masks layer right).mpr
    ⟨denies, fun both => ungranted dentry both.2⟩

theorem unmask_not_empty (shape : DomainShape dom) (ungranted : Ungranted dom layer right)
    (dentry : Dentry) {request : U16} (requested : requests request right = true)
    (denies : Denies masks layer right) :
    ¬ (unmaskLayers (findRule dom dentry) request masks).1 = true := by
  intro empty
  exact isEmptyFor_iff.mp (unmaskLayers_empty empty) layer right requested
    (unmask_stuck shape ungranted dentry request denies)

/-- The collected masks keep what no rule grants. -/
theorem collectWalk_stuck (shape : DomainShape dom) (ungranted : Ungranted dom layer right)
    (requested : requests handled right = true) (denies : Denies masks layer right) :
    ¬ (collectWalk vfs dom mnt handled turns dir masks).1 = true ∧
      Denies (collectWalk vfs dom mnt handled turns dir masks).2 layer right := by
  induction turns generalizing dir masks with
  | zero => exact ⟨Bool.false_ne_true, denies⟩
  | succ turns ih =>
    have still := unmask_stuck shape ungranted (vfs.dentries dir) handled denies
    unfold collectWalk
    dsimp only
    rw [if_neg (unmask_not_empty shape ungranted (vfs.dentries dir) requested denies)]
    split
    · exact ⟨Bool.false_ne_true, still⟩
    · exact ih still

theorem collectDomainAccesses_stuck (mnt : Nat) (shape : DomainShape dom)
    (ungranted : Ungranted dom layer right) (handles : LayerHandles dom layer right)
    (user : (vfs.dentries dir).isNouserOrPrivate = false) :
    ¬ (collectDomainAccesses vfs dom mnt dir emptyMasks).1 = true ∧
      Denies (collectDomainAccesses vfs dom mnt dir emptyMasks).2 layer right := by
  have all := requests_all right
  unfold collectDomainAccesses
  rw [user, if_neg Bool.false_ne_true]
  apply collectWalk_stuck shape ungranted
  · exact (initLayerMasks_requests shape.mask_limit _ right).mpr ⟨all, layer, handles⟩
  · exact (initLayerMasks_denies shape.mask_limit _ layer right).mpr ⟨all, handles⟩

/-- A walk on the way to a grant of a right that a layer denies. -/
structure Stuck (layer : Nat) (right : Right) (s : AccessWalk) : Prop where
  denies : Denies s.masks1 layer right
  masked : requests s.accessMasked1 right = true

theorem referCheck_stuck (requested : requests request1 right = true)
    (stuck : Stuck layer right s) :
    ¬ (referCheck request1 request2 child1 child2 s).1 = true ∧
      Stuck layer right (referCheck request1 request2 child1 child2 s).2 := by
  unfold referCheck
  split
  · rename_i m2 c1 isDom isMasks isChild
    split
    · have kept := (scopeToRequest_denies request1 s.masks1 layer right).mpr
        ⟨requested, stuck.denies⟩
      dsimp only
      split
      · rename_i both
        have first := (Bool.and_eq_true_iff.mp both).1
        exact absurd stuck.denies
          (scopeToRequest_fst request1 s.masks1 first layer right requested)
      · exact ⟨Bool.false_ne_true, kept, requested⟩
    · exact ⟨Bool.false_ne_true, stuck⟩
  · exact ⟨Bool.false_ne_true, stuck⟩

/-- A walk grants what no rule grants only at the root of an internal mount. -/
theorem accessWalk_stuck (shape : DomainShape dom) (ungranted : Ungranted dom layer right)
    (requested : requests request1 right = true) (stuck : Stuck layer right s)
    (granted : (accessWalk vfs dom request1 request2 child1 child2 turns path s).1 = true) :
    ending vfs path = .disconnected true := by
  induction turns generalizing path s with
  | zero => cases granted
  | succ turns ih =>
    have check : ¬ (referCheck request1 request2 child1 child2 s).1 = true ∧
        Stuck layer right (referCheck request1 request2 child1 child2 s).2 :=
      referCheck_stuck requested stuck
    have turn := accessWalk_granting granted
    cases turn with
    | checked granted => exact absurd granted check.1
    | emptied empty1 empty2 =>
      exact absurd empty1
        (unmask_not_empty shape ungranted (vfs.dentries path.dentry) check.2.masked
          check.2.denies)
    | further up ascends granted =>
      have still := unmask_stuck shape ungranted (vfs.dentries path.dentry)
        (referCheck request1 request2 child1 child2 s).2.accessMasked1 check.2.denies
      rw [ending_parent ascends]
      refine ih ?_ granted
      exact ⟨still, check.2.masked⟩
    | internal ends => exact ending_internal ends

end Stuck

/-- No dentry that a reparenting looks at first is hidden from users, and the mount is not below
the root of an internal one. -/
structure Exposed (vfs : Vfs) (oldDentry : Nat) (newDir : VfsPath) : Prop where
  oldParent : (vfs.dentries (oldParentOf vfs oldDentry newDir)).isNouserOrPrivate = false
  newParent : (vfs.dentries newDir.dentry).isNouserOrPrivate = false
  root : (vfs.dentries (vfs.mounts newDir.mnt).root).isNouserOrPrivate = false
  outside : ending vfs (rootPath vfs newDir.mnt) ≠ .disconnected true

variable {oldDentry newDentry : Nat} {newDir : VfsPath} {removable exchange : Bool}

theorem requests_refer (request : U16) : requests (request ||| landlockAccessFsRefer) refer = true := by
  unfold requests
  rw [BitVec.getLsbD_or, Bool.or_eq_true]
  exact .inr (by decide)

theorem checkReparent_stuck (shape : DomainShape dom) (ungranted : Ungranted dom layer refer)
    (inside : layer < dom.numLayers) (exposed : Exposed vfs oldDentry newDir) :
    checkReparent vfs dom oldDentry newDir newDentry exchange request1 request2 ≠ .ok () := by
  have handles : LayerHandles dom layer refer := handles_refer inside
  have old := collectDomainAccesses_stuck newDir.mnt shape ungranted handles exposed.oldParent
  intro allowed
  rcases checkReparent_ok allowed with both | granted
  · exact old.1 (Bool.and_eq_true_iff.mp both).1
  · rw [isAccessToPathsAllowed_eq shape (or_refer_ne_zero request1) exposed.root] at granted
    refine exposed.outside (accessWalk_stuck shape ungranted (requests_refer request1) ?_ granted)
    exact ⟨old.2, getHandledAccesses_requests handles⟩

theorem currentCheckReferPath_stuck (shape : DomainShape dom) (ungranted : Ungranted dom layer refer)
    (inside : layer < dom.numLayers) (exposed : Exposed vfs oldDentry newDir)
    (apart : (vfs.dentries oldDentry).parent ≠ newDir.dentry) :
    currentCheckReferPath vfs (some dom) oldDentry newDir newDentry removable exchange ≠
      .ok () := by
  intro allowed
  have layers : ¬ dom.numLayers < 1 := by omega
  unfold currentCheckReferPath at allowed
  simp only [if_neg layers] at allowed
  cases isOld : (vfs.dentries oldDentry).inode with
  | none =>
    rw [isOld] at allowed
    cases allowed
  | some oldInode =>
    simp only [isOld, if_neg apart] at allowed
    split at allowed
    · cases allowed
    · exact checkReparent_stuck shape ungranted inside exposed allowed

/-- A domain with a layer whose ruleset did not list the right to refer as handled denies every
link and rename between two parent directories. -/
theorem unlisted_refer_denies (color : RbInsertColor) {s : LandlockSystem}
    (reached : (landlockTasks color).Reachable Machine.free s) {a : Nat} {dom : LandlockRuleset}
    (here : s.heap.rulesets.get a = some dom) (isDomain : dom.hierarchy ≠ none) {layer : Nat}
    {mask : U16} (isLayer : dom.fsAccessMasks[layer]? = some mask)
    (unlisted : requests mask refer = false) (vfs : Vfs) (oldDentry : Nat) (newDir : VfsPath)
    (newDentry : Nat) (apart : (vfs.dentries oldDentry).parent ≠ newDir.dentry)
    (exposed : Exposed vfs oldDentry newDir) :
    hookPathLink vfs (some dom) oldDentry newDir newDentry ≠ .ok () ∧
      ∀ exchange, hookPathRename vfs (some dom) oldDentry newDir newDentry exchange ≠ .ok () := by
  have ok := reachable_systemOk color reached
  have shape : DomainShape dom :=
    (ok.heap.shaped a dom here).resolve_left fun plain => isDomain plain.plain
  have ungranted := ungranted_of_listed (ok.refer a dom here) isLayer unlisted
  have inside : layer < dom.numLayers := (List.getElem?_eq_some_iff.mp isLayer).1
  constructor
  · exact currentCheckReferPath_stuck shape ungranted inside exposed apart
  · intro exchange
    exact currentCheckReferPath_stuck shape ungranted inside exposed apart

/-- A task restricts itself with a ruleset that handles reading only and allows it below one
directory. -/
def readOnly : List LandlockAct :=
  [.createRuleset 4 100 [],
    .addRule 100 4 (some { isRuleset := false, mount := twoDirectories.mounts 0,
                           dentry := twoDirectories.dentries 1 }) (.ok 7) [],
    .restrictSelf 1 100 101 201 true []]

/-- One task without a domain. -/
def singleTask : LandlockSystem :=
  { heap := { rulesets := .empty, hierarchies := .empty }, files := [],
    tasks := Heap.set .empty 1 none, dying := [] }

def restrictedTask : LandlockSystem := ((landlockTasks .id).exec singleTask readOnly).getD singleTask

def readDomain : LandlockRuleset :=
  ((restrictedTask.heap.rulesets.get 101).getD
    { root := .nil, hierarchy := none, usage := 0, numRules := 0, fsAccessMasks := [] })

theorem singleTask_boots : AtBoot singleTask := by
  refine ⟨rfl, rfl, rfl, rfl, fun t d here => ?_⟩
  change (Heap.set Heap.empty 1 none).get t = some d at here
  rcases Heap.set_cases here with ⟨-, rfl⟩ | ⟨-, here⟩
  · rfl
  · cases here

theorem unlisted_refer_denies_read :
    hookPathLink twoDirectories (some readDomain) 3 ⟨0, 2⟩ 4 ≠ .ok () ∧
      ∀ exchange, hookPathRename twoDirectories (some readDomain) 3 ⟨0, 2⟩ 4 exchange ≠ .ok () := by
  have ran : (landlockTasks .id).exec singleTask readOnly = some restrictedTask := rfl
  have here : restrictedTask.heap.rulesets.get 101 = some readDomain := rfl
  have isLayer : readDomain.fsAccessMasks[0]? = some 4 := rfl
  have exposed : Exposed twoDirectories 3 ⟨0, 2⟩ := ⟨rfl, rfl, rfl, by decide⟩
  exact unlisted_refer_denies .id ⟨singleTask, singleTask_boots, Machine.exec_reaches ran⟩ here
    (by decide) isLayer (by decide) twoDirectories 3 ⟨0, 2⟩ 4 (by decide) exposed

end Ksrc.Guarantees.LandlockReparent

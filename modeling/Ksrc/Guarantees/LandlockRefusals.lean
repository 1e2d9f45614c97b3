import Ksrc.Guarantees.LandlockVerdicts

/-!
# Which error a refused link or rename gets

Source: `landlock/src/fs.c` (`is_eacces`, `is_access_to_paths_allowed`,
`current_check_refer_path`). `-EACCES` stands for a right to make or remove that a parent
hierarchy lacks, `-EXDEV` for everything else. The masks it is read from are final for what is
requested, at every exit of a walk that refuses.
-/
namespace Ksrc.Guarantees.LandlockRefusals

open Library Source LandlockShape LandlockMasks
  LandlockWalks LandlockPathAccess LandlockRefer
  LandlockRename LandlockVerdicts

variable {vfs : Vfs} {dom : LandlockRuleset} {mnt dir : Nat} {path : VfsPath}
  {masks final : LayerMasks} {request request1 request2 : U16} {layer : Nat} {right : Right}
  {out : Bool × LayerMasks} {checked : Bool × LayerMasks × Option LayerMasks}

/-- Some layer handles a requested right that no rule of the hierarchy grants in it. -/
def Lacks (vfs : Vfs) (dom : LandlockRuleset) (path : VfsPath) (request : U16) : Prop :=
  ∃ layer right, requests request right = true ∧ LayerHandles dom layer right ∧
    ¬ Granted vfs dom path layer right

/-- `is_eacces` finds a denied right other than the right to refer. -/
theorem isEacces_iff : isEacces masks request = true ↔
    ∃ layer right, requests (request &&& ~~~landlockAccessFsRefer) right = true ∧
      Denies masks layer right := by
  unfold isEacces
  simp only [List.any_eq_true, List.mem_finRange, true_and, Bool.and_eq_true, bne_iff_ne, ne_eq]
  constructor
  · rintro ⟨right, requested, denied⟩
    rw [layerMask_eq_zero, not_forall] at denied
    obtain ⟨layer, set⟩ := denied
    exact ⟨layer, right, requested, eq_true_of_ne_false set⟩
  · rintro ⟨layer, right, requested, denies⟩
    refine ⟨right, requested, fun zero => ?_⟩
    have clear := layerMask_eq_zero.mp zero layer
    unfold Denies at denies
    rw [clear] at denies
    cases denies

theorem getModeAccess_no_refer (mode : U16) :
    getModeAccess mode &&& landlockAccessFsRefer = 0 := by
  unfold getModeAccess
  dsimp only
  split_ifs <;> rfl

theorem maybeRemove_no_refer (dentry : Dentry) :
    maybeRemove dentry &&& landlockAccessFsRefer = 0 := by
  unfold maybeRemove
  split_ifs <;> rfl

theorem or_no_refer {a b : U16} (inA : a &&& landlockAccessFsRefer = 0)
    (inB : b &&& landlockAccessFsRefer = 0) : (a ||| b) &&& landlockAccessFsRefer = 0 := by
  rw [BitVec.and_comm, BitVec.and_or_distrib_left, BitVec.and_comm, inA, BitVec.and_comm, inB]
  rfl

theorem requestAtOld_no_refer (oldDentry newDentry : Nat) (removable exchange : Bool) :
    requestAtOld vfs oldDentry newDentry removable exchange &&& landlockAccessFsRefer = 0 := by
  apply or_no_refer
  · split
    · exact getModeAccess_no_refer _
    · rfl
  · split
    · exact maybeRemove_no_refer _
    · rfl

theorem requestAtNew_no_refer (oldDentry newDentry : Nat) (removable : Bool) :
    requestAtNew vfs oldDentry newDentry removable &&& landlockAccessFsRefer = 0 := by
  apply or_no_refer
  · split
    · exact getModeAccess_no_refer _
    · rfl
  · split
    · exact maybeRemove_no_refer _
    · rfl

/-- The right to refer is asked for apart from what is made and removed. -/
theorem requests_made (apart : request &&& landlockAccessFsRefer = 0) (right : Right) :
    requests ((request ||| landlockAccessFsRefer) &&& ~~~landlockAccessFsRefer) right =
      requests request right := by
  have bit := congrArg (fun mask : U16 => mask.getLsbD right) apart
  have small : right.val < 16 := right.isLt.trans (by decide)
  simp only [BitVec.getLsbD_and, BitVec.ofNat_eq_ofNat, BitVec.getLsbD_zero] at bit
  unfold requests
  rw [BitVec.getLsbD_and, BitVec.getLsbD_or, BitVec.getLsbD_not, decide_eq_true small]
  revert bit
  cases request.getLsbD right <;> cases landlockAccessFsRefer.getLsbD right <;> decide

/-- The masks of a refused walk show a denied right exactly where its hierarchy lacks it. -/
theorem isEacces_final (is : Collected vfs dom mnt dir out)
    (apart : request &&& landlockAccessFsRefer = 0)
    (isFinal : Final vfs dom (rootPath vfs mnt) (request ||| landlockAccessFsRefer) out.2 final) :
    isEacces final (request ||| landlockAccessFsRefer) = true ↔
      Lacks vfs dom ⟨mnt, dir⟩ request := by
  have made := requests_made apart
  rw [isEacces_iff]
  unfold Lacks
  apply exists_congr
  intro layer
  apply exists_congr
  intro right
  rw [made]
  apply and_congr_right
  intro requested
  have within : requests (request ||| landlockAccessFsRefer) right = true := by
    unfold requests at requested ⊢
    rw [BitVec.getLsbD_or, requested, Bool.true_or]
  rw [isFinal layer right within, is.left]

theorem reparentAnswer_refused {final2 : LayerMasks} (refused : checked.1 = false)
    (isSecond : checked.2.2 = some final2) :
    (reparentAnswer request1 request2 checked = .error .EACCES ↔
      isEacces checked.2.1 request1 = true ∨ isEacces final2 request2 = true) ∧
    (reparentAnswer request1 request2 checked = .error .EXDEV ↔
      ¬ (isEacces checked.2.1 request1 = true ∨ isEacces final2 request2 = true)) := by
  unfold reparentAnswer
  rw [refused, isSecond, if_neg Bool.false_ne_true, ← Bool.or_eq_true]
  cases (isEacces checked.2.1 request1 || isEacces final2 request2) with
  | true => decide
  | false => decide

/-- A link or rename of an existing object between two directories that is refused gets
`-EACCES` exactly when one of the parent hierarchies lacks a right to make or remove that the
operation requests of it, and `-EXDEV` otherwise. -/
theorem refused_error_iff (vfs : Vfs) (dom : Domain) (oldDentry : Nat) (newDir : VfsPath)
    (newDentry : Nat) (removable exchange : Bool)
    (oldExists : (vfs.dentries oldDentry).inode ≠ none)
    (newExists : exchange = true → (vfs.dentries newDentry).inode ≠ none)
    (apart : (vfs.dentries oldDentry).parent ≠ newDir.dentry)
    (oldOrdinary : Ordinary vfs ⟨newDir.mnt, oldParentOf vfs oldDentry newDir⟩)
    (newOrdinary : Ordinary vfs newDir) (ends : ending vfs newDir = .realRoot)
    (refused : currentCheckReferPath vfs (some dom.ruleset) oldDentry newDir newDentry removable
      exchange ≠ .ok ()) :
    (currentCheckReferPath vfs (some dom.ruleset) oldDentry newDir newDentry removable exchange =
        .error .EACCES ↔
      Lacks vfs dom.ruleset ⟨newDir.mnt, oldParentOf vfs oldDentry newDir⟩
          (requestAtOld vfs oldDentry newDentry removable exchange) ∨
        Lacks vfs dom.ruleset newDir (requestAtNew vfs oldDentry newDentry removable)) ∧
    (currentCheckReferPath vfs (some dom.ruleset) oldDentry newDir newDentry removable exchange =
        .error .EXDEV ↔
      ¬ (Lacks vfs dom.ruleset ⟨newDir.mnt, oldParentOf vfs oldDentry newDir⟩
          (requestAtOld vfs oldDentry newDentry removable exchange) ∨
        Lacks vfs dom.ruleset newDir (requestAtNew vfs oldDentry newDentry removable))) := by
  rw [currentCheckReferPath_apart dom.shape oldExists newExists apart] at refused ⊢
  have isOld := collectDomainAccesses_collected dom.shape oldOrdinary
  have isNew : Collected vfs dom.ruleset newDir.mnt newDir.dentry
      (collectDomainAccesses vfs dom.ruleset newDir.mnt newDir.dentry emptyMasks) :=
    collectDomainAccesses_collected dom.shape newOrdinary
  obtain ⟨out1, out2, rfl, rfl, ⟨-, -, granted⟩ | ⟨checked, verdict, answer⟩⟩ :=
    checkReparent_verdict dom.shape newDentry exchange
      (requestAtOld vfs oldDentry newDentry removable exchange)
      (requestAtNew vfs oldDentry newDentry removable) oldOrdinary newOrdinary ends
  · exact absurd granted refused
  · rw [answer] at refused ⊢
    have denied : checked.1 = false := by
      rw [Ne, reparentAnswer_ok] at refused
      exact Bool.eq_false_iff.mpr refused
    obtain ⟨final2, isSecond, isFinal2⟩ := verdict.second denied
    rw [← isEacces_final isOld (requestAtOld_no_refer oldDentry newDentry removable exchange)
        (verdict.first denied),
      ← isEacces_final isNew (requestAtNew_no_refer oldDentry newDentry removable) isFinal2]
    exact reparentAnswer_refused denied isSecond

/-- One layer that handles the making and removal of files, and grants the making alone below
one object. -/
def makersLayer : Domain where
  ruleset :=
    { root := .node false .nil ⟨7, [⟨1, landlockAccessFsMakeReg ||| landlockAccessFsRefer⟩]⟩ .nil
      hierarchy := some 0
      usage := 1
      numRules := 1
      fsAccessMasks := [landlockAccessFsMakeReg ||| landlockAccessFsRemoveFile] }
  shape := by
    refine ⟨⟨List.pairwise_singleton _ _, rfl, by decide⟩, by decide, by decide, by decide, ?_⟩
    intro rule member
    rw [List.mem_singleton.mp member]
    refine ⟨List.cons_ne_nil _ _, List.pairwise_singleton _ _, ?_⟩
    intro layer inside
    rw [List.mem_singleton.mp inside]
    decide

theorem refused_error_iff_rename :
    Lacks twoDirectories makersLayer.ruleset ⟨0, 1⟩ (requestAtOld twoDirectories 3 4 true false) ∨
      Lacks twoDirectories makersLayer.ruleset ⟨0, 2⟩ (requestAtNew twoDirectories 3 4 true) :=
  (refused_error_iff twoDirectories makersLayer 3 ⟨0, 2⟩ 4 true false (by decide) (by decide)
    (by decide) (directory_ordinary 1 (.inl rfl)) (directory_ordinary 2 (.inr rfl)) (by decide)
    (by decide)).1.mp (by decide)

end Ksrc.Guarantees.LandlockRefusals

import Ksrc.Guarantees.LandlockVerdicts
import Ksrc.Source.LandlockFiles

/-!
# The rights recorded when a file is opened

Source: `landlock/src/fs.c` (`hook_file_open`, `hook_file_truncate`). One walk asks for all
rights a file may need. Where it is refused it has met every rule, so a right is vetoed by no
layer in the masks it leaves exactly where a walk for that right alone is granted.
-/
namespace Ksrc.Guarantees.LandlockFiles

open Library Source LandlockShape LandlockMasks
  LandlockWalks LandlockPathAccess LandlockRefer
  LandlockRename LandlockVerdicts

variable {vfs : Vfs} {dom : LandlockRuleset} {path : VfsPath} {request : U16} {masks : LayerMasks}
  {file : LandlockFile} {right : Right}

/-- The request for one right. -/
def rightBit (bit : Nat) : U16 := 1#16 <<< bit

section Bits

theorem rightBit_getLsbD {bit : Nat} (small : bit < 16) (i : Nat) :
    (rightBit bit).getLsbD i = decide (i = bit) :=
  layer_bit small i

theorem requests_rightBit (right other : Right) :
    requests (rightBit right) other = true ↔ other = right := by
  have small : right.val < 16 := right.isLt.trans (by decide)
  unfold requests
  rw [rightBit_getLsbD small, decide_eq_true_eq, Fin.ext_iff]

theorem unvetoed_fold (rights : List Right) (allowed : U16) (bit : Nat) :
    (rights.foldl (addUnvetoed request masks) allowed).getLsbD bit = true ↔
      allowed.getLsbD bit = true ∨
        ∃ right ∈ rights, bit = right ∧ requests request right = true ∧ masks right = 0 := by
  induction rights generalizing allowed with
  | nil => simp
  | cons right rest ih =>
    have small : right.val < 16 := right.isLt.trans (by decide)
    have turn : (addUnvetoed request masks allowed right).getLsbD bit = true ↔
        allowed.getLsbD bit = true ∨
          bit = right ∧ requests request right = true ∧ masks right = 0 := by
      unfold addUnvetoed
      split
      · rename_i here
        rw [BitVec.getLsbD_or, layer_bit small, Bool.or_eq_true, decide_eq_true_eq]
        simp only [here, and_true]
      · rename_i vetoed
        simp only [vetoed, and_false, or_false]
    rw [List.foldl_cons, ih, turn, or_assoc]
    simp only [List.mem_cons, exists_eq_or_imp]

/-- The loop keeps the requested rights whose mask is empty. -/
theorem unvetoed_iff (right : Right) : (unvetoed request masks).getLsbD right = true ↔
    requests request right = true ∧ ∀ layer, ¬ Denies masks layer right := by
  have empty : masks right = 0 ↔ ∀ layer, ¬ Denies masks layer right := by
    unfold Denies
    rw [layerMask_eq_zero]
    simp only [Bool.not_eq_true]
  unfold unvetoed
  rw [unvetoed_fold, ← empty]
  constructor
  · rintro (never | ⟨other, -, same, kept⟩)
    · rw [BitVec.ofNat_eq_ofNat, BitVec.getLsbD_zero] at never
      cases never
    · rw [Fin.ext same]
      exact kept
  · intro kept
    exact .inr ⟨right, List.mem_finRange right, rfl, kept⟩

/-- Nothing but access rights is recorded. -/
theorem unvetoed_right {bit : Nat} (kept : (unvetoed request masks).getLsbD bit = true) :
    ∃ right : Right, bit = right := by
  obtain never | ⟨right, -, same, -⟩ := (unvetoed_fold _ _ _).mp kept
  · rw [BitVec.ofNat_eq_ofNat, BitVec.getLsbD_zero] at never
    cases never
  · exact ⟨right, same⟩

end Bits

section Walk

/-- The masks that a refused walk of a simple request leaves. -/
theorem accessWalk_left (shape : DomainShape dom) (turns : Nat) (below : vfs.height path < turns)
    (before : isEmptyFor request masks = false) (within : Within request masks) :
    let walked := accessWalk vfs dom request 0 none none turns path
      { isDomCheck := false, accessMasked1 := request, accessMasked2 := 0, masks1 := masks
        masks2 := none }
    walked.1 = false → ∀ layer right, Denies walked.2.1 layer right ↔
      Left vfs dom path masks layer right := by
  induction turns generalizing path masks with
  | zero => omega
  | succ turns ih =>
    have answer := unmaskLayers_fst (findRule dom (vfs.dentries path.dentry)) before
    unfold accessWalk referCheck
    dsimp only [unmaskLayersOpt]
    rw [Bool.and_true]
    cases granted : (unmaskLayers (findRule dom (vfs.dentries path.dentry)) request masks).1 with
    | true =>
      rw [if_pos rfl]
      intro never
      cases never
    | false =>
      rw [granted] at answer
      rw [if_neg Bool.false_ne_true]
      cases ascends : ascend vfs path with
      | parent up =>
        intro refused layer right
        have lower := ascend_lower ascends
        have later := ih (by omega) answer.symm (within_turn shape _ within) refused layer right
        rw [left_parent shape ascends within] at later
        exact later
      | realRoot =>
        intro _ layer right
        exact left_end shape (no_parent ascends) within layer right
      | disconnected internal =>
        have ends : ∀ up, ascend vfs path ≠ .parent up := fun up => by
          rw [ascends]
          exact Ascent.noConfusion
        intro _ layer right
        exact left_end shape ends within layer right

/-- The masks of a refused request veto the requested rights that a layer handles and no rule on
the way up grants in it. -/
theorem refused_denies (shape : DomainShape dom) (vfs : Vfs) (path : VfsPath) (request : U16) :
    let walked := isAccessToPathsAllowed vfs dom path (initLayerMasks dom request).1
      (initLayerMasks dom request).2 none 0 none none
    walked.1 = false → ∀ layer right, Denies walked.2.1 layer right ↔
      requests request right = true ∧ LayerHandles dom layer right ∧
        ¬ Granted vfs dom path layer right := by
  have layers : ¬ dom.numLayers < 1 := by
    have some := shape.some_mask
    omega
  unfold isAccessToPathsAllowed
  by_cases zero : (initLayerMasks dom request).1 = 0
  · rw [if_pos ⟨zero, rfl⟩]
    intro _ never
    exact Bool.noConfusion never
  rw [if_neg fun both => zero both.1]
  cases user : (vfs.dentries path.dentry).isNouserOrPrivate with
  | true =>
    rw [if_pos rfl]
    intro _ never
    exact Bool.noConfusion never
  | false =>
    rw [if_neg Bool.false_ne_true, if_neg layers]
    simp only [Option.isSome_none, Bool.false_eq_true, false_and, if_false, or_self, and_false,
      Option.map_none]
    intro refused layer right
    rw [accessWalk_left shape _ (Nat.lt_succ_self _) (initLayerMasks_some shape.mask_limit zero)
      (initLayerMasks_within shape request) refused]
    unfold Left
    rw [initLayerMasks_denies shape.mask_limit, and_assoc]

end Walk

section Rights

/-- Whether each layer that handles a right finds a rule for it, or the code exempts the path. -/
theorem permits_right (right : Right) : Permits vfs dom path (rightBit right) ↔
    Exempt vfs path ∨ ∀ layer, LayerHandles dom layer right → Granted vfs dom path layer right := by
  unfold Permits
  simp only [requests_rightBit, forall_eq]

/-- A request is permitted where each of its rights is. -/
theorem permits_iff : Permits vfs dom path request ↔
    ∀ right : Right, requests request right = true → Permits vfs dom path (rightBit right) := by
  simp only [permits_right]
  unfold Permits
  constructor
  · rintro (exempt | all) right requested
    · exact .inl exempt
    · exact .inr fun layer handles => all layer right requested handles
  · intro each
    by_cases exempt : Exempt vfs path
    · exact .inl exempt
    · refine .inr fun layer right requested handles => ?_
      exact (each right requested).resolve_left exempt layer handles

theorem required_right {bit : Nat}
    (required : (fullAccessRequest file).getLsbD bit = true) : ∃ right : Right, bit = right := by
  have rights : fullAccessRequest file &&& landlockMaskAccessFs = fullAccessRequest file := by
    unfold fullAccessRequest getRequiredFileOpenAccess
    dsimp only
    split_ifs <;> rfl
  have inside := required
  rw [← rights, BitVec.getLsbD_and, Bool.and_eq_true] at inside
  have small : bit < 16 := BitVec.lt_of_getLsbD required
  have inMask : ∀ bit : Fin 16, landlockMaskAccessFs.getLsbD bit = true →
      bit.val < landlockNumAccessFs := by decide
  exact ⟨⟨bit, inMask ⟨bit, small⟩ inside.2⟩, rfl⟩

/-- What `hook_file_open` records of a right. -/
theorem allowed_right (shape : DomainShape dom) (right : Right) :
    (hookFileOpen vfs (some dom) file).2.allowedAccess.getLsbD right = true ↔
      requests (fullAccessRequest file) right = true ∧
        Permits vfs dom file.fPath (rightBit right) := by
  have answer := @pathAccess_iff vfs dom shape file.fPath (fullAccessRequest file)
  have denies := refused_denies shape vfs file.fPath (fullAccessRequest file)
  rw [grantsAll_init shape] at answer
  unfold hookFileOpen
  dsimp only at denies ⊢
  split
  · rename_i granted
    have all := permits_iff.mp (answer.mp granted) right
    exact ⟨fun requested => ⟨requested, all requested⟩, And.left⟩
  · rename_i refused
    have notExempt : ¬ Exempt vfs file.fPath := fun exempt => refused (answer.mpr (.inl exempt))
    rw [unvetoed_iff, permits_right, or_iff_right notExempt]
    refine and_congr_right fun requested => forall_congr' fun layer => ?_
    rw [denies (Bool.eq_false_iff.mpr refused)]
    tauto

/-- What `hook_file_open` records. -/
theorem allowed_bit (shape : DomainShape dom) (vfs : Vfs) (file : LandlockFile) (bit : Nat) :
    (hookFileOpen vfs (some dom) file).2.allowedAccess.getLsbD bit = true ↔
      (fullAccessRequest file).getLsbD bit = true ∧
        checkAccessPath vfs dom file.fPath (rightBit bit) = .ok () := by
  have recorded : (hookFileOpen vfs (some dom) file).2.allowedAccess.getLsbD bit = true →
      ∃ right : Right, bit = right := by
    unfold hookFileOpen
    dsimp only
    split
    · exact required_right
    · exact unvetoed_right
  constructor
  · intro here
    obtain ⟨right, rfl⟩ := recorded here
    rw [checkAccessPath_iff shape]
    exact (allowed_right shape right).mp here
  · rintro ⟨required, permitted⟩
    obtain ⟨right, rfl⟩ := required_right required
    rw [checkAccessPath_iff shape] at permitted
    exact (allowed_right shape right).mpr ⟨required, permitted⟩

/-- A mask covers a request where it has each of its bits. -/
theorem and_eq_left_iff {request allowed : U16} : request &&& allowed = request ↔
    ∀ bit, request.getLsbD bit = true → allowed.getLsbD bit = true := by
  constructor
  · intro covered bit requested
    rw [← covered, BitVec.getLsbD_and, Bool.and_eq_true] at requested
    exact requested.2
  · intro all
    apply BitVec.eq_of_getLsbD_eq
    intro bit _
    rw [BitVec.getLsbD_and]
    cases requested : request.getLsbD bit with
    | true => rw [all bit requested, Bool.and_self]
    | false => rw [Bool.false_and]

theorem hookFileOpen_answer (vfs : Vfs) (dom : LandlockRuleset) (file : LandlockFile) :
    (hookFileOpen vfs (some dom) file).1 = .ok () ↔
      ∀ bit, (getRequiredFileOpenAccess file).getLsbD bit = true →
        (hookFileOpen vfs (some dom) file).2.allowedAccess.getLsbD bit = true := by
  rw [← and_eq_left_iff]
  unfold hookFileOpen
  dsimp only
  split_ifs <;> simp_all

theorem hookFileTruncate_iff : hookFileTruncate file = .ok () ↔
    file.allowedAccess.getLsbD 14 = true := by
  have bit : file.allowedAccess &&& landlockAccessFsTruncate = 0 ↔
      file.allowedAccess.getLsbD 14 = false := by
    rw [layerMask_eq_zero]
    have one : ∀ i, landlockAccessFsTruncate.getLsbD i = decide (i = 14) :=
      layer_bit (by decide)
    simp only [BitVec.getLsbD_and, one, Bool.and_eq_false_imp, decide_eq_false_iff_not]
    constructor
    · intro all
      rw [Bool.eq_false_iff]
      intro set
      exact all 14 set rfl
    · rintro clear i set rfl
      rw [clear] at set
      cases set
  unfold hookFileTruncate
  simp only [ne_eq, bit]
  cases file.allowedAccess.getLsbD 14 <;> simp

end Rights

/-- A file is opened exactly where its path permits the required rights. The rights recorded for
it are those among the required ones and the right to truncate that its path permits when asked
for alone, so it may be truncated later exactly where its path permitted that. -/
theorem openRights_exact (vfs : Vfs) (dom : Domain) (file : LandlockFile) :
    let opened := hookFileOpen vfs (some dom.ruleset) file
    (opened.1 = .ok () ↔
      checkAccessPath vfs dom.ruleset file.fPath (getRequiredFileOpenAccess file) = .ok ()) ∧
    (∀ bit, opened.2.allowedAccess.getLsbD bit = true ↔
      (getRequiredFileOpenAccess file ||| landlockAccessFsTruncate).getLsbD bit = true ∧
        checkAccessPath vfs dom.ruleset file.fPath (rightBit bit) = .ok ()) ∧
    (hookFileTruncate opened.2 = .ok () ↔
      checkAccessPath vfs dom.ruleset file.fPath landlockAccessFsTruncate = .ok ()) := by
  have recorded := allowed_bit dom.shape vfs file
  refine ⟨?_, recorded, ?_⟩
  · have required : ∀ bit, (getRequiredFileOpenAccess file).getLsbD bit = true →
        (fullAccessRequest file).getLsbD bit = true := by
      intro bit set
      unfold fullAccessRequest
      rw [BitVec.getLsbD_or, set, Bool.true_or]
    rw [hookFileOpen_answer, checkAccessPath_iff dom.shape, permits_iff]
    constructor
    · intro all right requested
      have permitted := ((recorded right).mp (all right requested)).2
      rwa [checkAccessPath_iff dom.shape] at permitted
    · intro each bit set
      obtain ⟨right, rfl⟩ := required_right (required bit set)
      apply (recorded right).mpr
      rw [checkAccessPath_iff dom.shape]
      exact ⟨required right set, each right set⟩
  · have truncate : (fullAccessRequest file).getLsbD 14 = true := by
      unfold fullAccessRequest
      rw [BitVec.getLsbD_or, Bool.or_eq_true]
      exact .inr rfl
    rw [hookFileTruncate_iff, recorded 14]
    exact and_iff_right truncate

end Ksrc.Guarantees.LandlockFiles

import Ksrc.Guarantees.LandlockVerdicts

/-!
# Harmless links and renames between two directories

Source: `landlock/src/fs.c` (`is_access_to_paths_allowed`, `current_check_refer_path`). What is
moved gains nothing when its new place grants no more than its old one. The code compares the
two places at the start of each turn of the walk and not after its last rule, so what only the
last directory grants is missed: unless that directory is the root of the mount itself, whose
rule is among the collected ones.
-/
namespace Ksrc.Guarantees.LandlockHarmless

open Library Source LandlockShape LandlockMasks
  LandlockWalks LandlockPathAccess LandlockRefer
  LandlockRename LandlockVerdicts

variable {vfs : Vfs} {dom : LandlockRuleset} {mnt dir oldParent oldDentry newDentry : Nat}
  {masks : LayerMasks} {handled request1 request2 : U16} {turns layer : Nat} {right : Right}
  {newDir : VfsPath} {exchange removable : Bool} {out1 out2 : Bool × LayerMasks}

/-- The directories of a walk without the last one, where that is not the root of the mount. -/
def beforeLast (vfs : Vfs) (path : VfsPath) : List Nat :=
  (vfs.mounts path.mnt).root :: (visited vfs path).dropLast

def GrantedBeforeLast (vfs : Vfs) (dom : LandlockRuleset) (path : VfsPath) (layer : Nat)
    (right : Right) : Prop :=
  ∃ d ∈ beforeLast vfs path, RuleGrants (findRule dom (vfs.dentries d)) layer right

/-- No right that matters to a file is granted at one place only, as judged without the last
directory of the walks. -/
def NoGainBeforeLast (vfs : Vfs) (dom : LandlockRuleset) (object : Nat) (old new : VfsPath) :
    Prop :=
  ∀ layer right, LayerHandles dom layer right → MatterTo (vfs.dentries object) right →
    RuleGrants (findRule dom (vfs.dentries object)) layer right ∨
      GrantedBeforeLast vfs dom new layer right →
    RuleGrants (findRule dom (vfs.dentries object)) layer right ∨
      GrantedBeforeLast vfs dom old layer right

/-- What a walk from below the root of a mount meets before its last directory. -/
theorem grantedBeforeLast_up (inside : dir ≠ (vfs.mounts mnt).root)
    (notRoot : vfs.isRoot dir = false) :
    GrantedBeforeLast vfs dom ⟨mnt, dir⟩ layer right ↔
      RuleGrants (findRule dom (vfs.dentries dir)) layer right ∨
        GrantedBeforeLast vfs dom ⟨mnt, (vfs.dentries dir).parent⟩ layer right := by
  have some : visited vfs ⟨mnt, (vfs.dentries dir).parent⟩ ≠ [] :=
    List.ne_nil_of_mem (start_visited vfs _)
  unfold GrantedBeforeLast beforeLast
  rw [visited_parent (ascend_below inside notRoot), List.dropLast_cons_of_ne_nil some]
  simp only [List.mem_cons, exists_eq_or_imp]
  grind

/-- What is left of the collected masks before the last directory. -/
theorem collectWalk_leftBeforeLast (shape : DomainShape dom) (under : Under vfs mnt dir)
    (below : vfs.height ⟨mnt, dir⟩ < turns)
    (within : Within handled masks)
    (layer : Nat) (right : Right) :
    LeftBeforeLast vfs dom (rootPath vfs mnt)
        (collectWalk vfs dom mnt handled turns dir masks).2 layer right ↔
      Denies masks layer right ∧ ¬ GrantedBeforeLast vfs dom ⟨mnt, dir⟩ layer right := by
  induction turns generalizing dir masks with
  | zero => omega
  | succ turns ih =>
    have cleared := turn_cleared handled shape (vfs.dentries dir) masks layer right
    have inside := within layer right
    unfold collectWalk
    dsimp only
    cases under with
    | root _ isRoot =>
      subst isRoot
      rw [if_pos (Or.inl rfl), apply_ite Prod.snd, ite_self]
      unfold LeftBeforeLast GrantedBeforeLast beforeLast
      change Denies _ layer right ∧ (∀ d ∈ (visited vfs (rootPath vfs mnt)).dropLast, _) ↔
        Denies masks layer right ∧
          ¬ ∃ d ∈ (vfs.mounts mnt).root :: (visited vfs (rootPath vfs mnt)).dropLast, _
      rw [cleared]
      simp only [List.mem_cons, exists_eq_or_imp, not_or, not_exists, not_and]
      grind
    | up _ below' notRoot rest =>
      rw [grantedBeforeLast_up below' notRoot]
      split
      · rename_i stops
        have none := not_denies_of_empty (unmaskLayers_empty stops) (within_turn shape _ within)
          layer right
        unfold LeftBeforeLast
        grind
      · have goesOn : ¬ (dir = (vfs.mounts mnt).root ∨ vfs.isRoot dir = true) := by
          rw [notRoot]
          simp only [below', Bool.false_eq_true, or_self, not_false_eq_true]
        have lower := ascend_lower (ascend_below below' notRoot)
        rw [if_neg goesOn, ih rest (by omega) (within_turn shape _ within), cleared]
        grind

theorem collectDomainAccesses_leftBeforeLast (shape : DomainShape dom)
    (ordinary : Ordinary vfs ⟨mnt, dir⟩) (layer : Nat) (right : Right) :
    LeftBeforeLast vfs dom (rootPath vfs mnt)
        (collectDomainAccesses vfs dom mnt dir emptyMasks).2 layer right ↔
      LayerHandles dom layer right ∧ ¬ GrantedBeforeLast vfs dom ⟨mnt, dir⟩ layer right := by
  have user := ordinary.users dir (start_visited vfs ⟨mnt, dir⟩)
  have denies := initLayerMasks_denies shape.mask_limit landlockMaskAccessFs
  have within := initLayerMasks_within shape landlockMaskAccessFs
  unfold collectDomainAccesses
  rw [user]
  dsimp only
  rw [if_neg Bool.false_ne_true,
    collectWalk_leftBeforeLast shape ordinary.under (Nat.lt_succ_self _) within, denies]
  simp only [requests_all, true_and]

/-- A comparison of the collected masks is one of the two places. -/
theorem compares_iff (shape : DomainShape dom) (oldOrdinary : Ordinary vfs ⟨mnt, oldParent⟩)
    (newOrdinary : Ordinary vfs ⟨mnt, dir⟩) :
    Compares (childAccess dom (vfs.dentries oldDentry))
        ((if exchange then some newDentry else none).map fun dentry =>
          childAccess dom (vfs.dentries dentry))
        (LeftBeforeLast vfs dom (rootPath vfs mnt)
          (collectDomainAccesses vfs dom mnt oldParent emptyMasks).2)
        (LeftBeforeLast vfs dom (rootPath vfs mnt)
          (collectDomainAccesses vfs dom mnt dir emptyMasks).2) ↔
      NoGainBeforeLast vfs dom oldDentry ⟨mnt, oldParent⟩ ⟨mnt, dir⟩ ∧
        (exchange = true → NoGainBeforeLast vfs dom newDentry ⟨mnt, dir⟩ ⟨mnt, oldParent⟩) := by
  have leftOld := collectDomainAccesses_leftBeforeLast shape oldOrdinary
  have leftNew := collectDomainAccesses_leftBeforeLast shape newOrdinary
  rw [Compares.congr leftOld leftNew]
  have side : ∀ (object : Nat) (old new : VfsPath),
      (∀ layer right, Relevant (childAccess dom (vfs.dentries object)) right →
        LayerHandles dom layer right ∧ ¬ GrantedBeforeLast vfs dom old layer right →
        Denies (childAccess dom (vfs.dentries object)).masks layer right →
          LayerHandles dom layer right ∧ ¬ GrantedBeforeLast vfs dom new layer right) ↔
        NoGainBeforeLast vfs dom object old new := by
    intro object old new
    apply forall_congr'
    intro layer
    apply forall_congr'
    intro right
    rw [childAccess_denies shape]
    change (MatterTo (vfs.dentries object) right → _) ↔ _
    grind
  unfold Compares
  rw [side]
  apply and_congr_right'
  cases exchange with
  | true =>
    simp only [if_true, Option.map_some, Option.some.injEq, forall_eq', true_imp_iff]
    exact side newDentry ⟨mnt, dir⟩ ⟨mnt, oldParent⟩
  | false =>
    simp only [Bool.false_eq_true, if_false, Option.map_none, reduceCtorEq, false_imp_iff,
      implies_true]

theorem provides_iff_grantsAll (is : Collected vfs dom mnt dir out1) {needed : U16} :
    Provides vfs dom ⟨mnt, dir⟩ needed ↔ GrantsAll vfs dom (rootPath vfs mnt) needed out1.2 := by
  rw [grantsAll_iff_left]
  simp only [is.left]
  unfold Provides
  apply forall_congr'
  intro layer
  apply forall_congr'
  intro right
  grind

theorem noneLeft_iff_provides (is : Collected vfs dom mnt dir out1) :
    NoneLeft vfs dom (rootPath vfs mnt) out1.2 ↔
      Provides vfs dom ⟨mnt, dir⟩ landlockMaskAccessFs := by
  rw [provides_iff_grantsAll is, grantsAll_iff_left]
  unfold NoneLeft
  simp only [requests_all, true_imp_iff]

/-- How a reparenting between two ordinary hierarchies passes. -/
def ReparentGrants (vfs : Vfs) (dom : LandlockRuleset) (oldDentry newDentry : Nat)
    (old new : VfsPath) (exchange : Bool) (request1 request2 : U16) : Prop :=
  (NoGainBeforeLast vfs dom oldDentry old new ∧
      (exchange = true → NoGainBeforeLast vfs dom newDentry new old)) ∧
      Provides vfs dom old request1 ∧ Provides vfs dom new request2 ∨
    Provides vfs dom old landlockMaskAccessFs ∧ Provides vfs dom new landlockMaskAccessFs

theorem walkGrants_iff (shape : DomainShape dom) (oldOrdinary : Ordinary vfs ⟨mnt, oldParent⟩)
    (newOrdinary : Ordinary vfs ⟨mnt, dir⟩) :
    WalkGrants vfs dom (rootPath vfs mnt) request1 request2
        (childAccess dom (vfs.dentries oldDentry))
        ((if exchange then some newDentry else none).map fun dentry =>
          childAccess dom (vfs.dentries dentry))
        (collectDomainAccesses vfs dom mnt oldParent emptyMasks).2
        (collectDomainAccesses vfs dom mnt dir emptyMasks).2 ↔
      ReparentGrants vfs dom oldDentry newDentry ⟨mnt, oldParent⟩ ⟨mnt, dir⟩ exchange request1
        request2 := by
  have isOld := collectDomainAccesses_collected shape oldOrdinary
  have isNew := collectDomainAccesses_collected shape newOrdinary
  unfold WalkGrants ReparentGrants
  rw [compares_iff shape oldOrdinary newOrdinary, ← provides_iff_grantsAll isOld,
    ← provides_iff_grantsAll isNew, noneLeft_iff_provides isOld, noneLeft_iff_provides isNew]

/-- `current_check_refer_path` between two ordinary hierarchies that end at the real root. -/
theorem checkReparent_iff (shape : DomainShape dom)
    (oldOrdinary : Ordinary vfs ⟨newDir.mnt, oldParentOf vfs oldDentry newDir⟩)
    (newOrdinary : Ordinary vfs newDir) (ends : ending vfs newDir = .realRoot) :
    checkReparent vfs dom oldDentry newDir newDentry exchange request1 request2 = .ok () ↔
      ReparentGrants vfs dom oldDentry newDentry ⟨newDir.mnt, oldParentOf vfs oldDentry newDir⟩
        newDir exchange (request1 ||| landlockAccessFsRefer)
        (request2 ||| landlockAccessFsRefer) := by
  obtain ⟨out1, out2, is1, is2, ⟨none1, none2, granted⟩ | ⟨checked, verdict, answer⟩⟩ :=
    checkReparent_verdict shape newDentry exchange request1 request2 oldOrdinary newOrdinary ends
  · have isOld := collectDomainAccesses_collected shape oldOrdinary
    have isNew : Collected vfs dom newDir.mnt newDir.dentry
        (collectDomainAccesses vfs dom newDir.mnt newDir.dentry emptyMasks) :=
      collectDomainAccesses_collected shape newOrdinary
    rw [← is1] at isOld
    rw [← is2] at isNew
    have all1 := (noneLeft_iff_provides isOld).mp fun layer right left =>
      none1 layer right left.1
    have all2 := (noneLeft_iff_provides isNew).mp fun layer right left =>
      none2 layer right left.1
    exact ⟨fun _ => .inr ⟨all1, all2⟩, fun _ => granted⟩
  · rw [answer, reparentAnswer_ok, verdict.answer, is1, is2]
    exact walkGrants_iff shape oldOrdinary newOrdinary

section Harmless

/-- A link or rename between two directories that grant what it needs, and by which no file
gains a right, as judged on whole walks to the real root. -/
structure Harmless (vfs : Vfs) (dom : LandlockRuleset) (oldDentry : Nat) (newDir : VfsPath)
    (newDentry : Nat) (removable exchange : Bool) : Prop where
  oldExists : (vfs.dentries oldDentry).inode ≠ none
  newExists : exchange = true → (vfs.dentries newDentry).inode ≠ none
  apart : (vfs.dentries oldDentry).parent ≠ newDir.dentry
  oldOrdinary : Ordinary vfs ⟨newDir.mnt, oldParentOf vfs oldDentry newDir⟩
  newOrdinary : Ordinary vfs newDir
  ends : ending vfs newDir = .realRoot
  atOld : Provides vfs dom ⟨newDir.mnt, oldParentOf vfs oldDentry newDir⟩
    (neededAtOld vfs oldDentry newDentry removable exchange)
  atNew : Provides vfs dom newDir (neededAtNew vfs oldDentry newDentry removable)
  forth : NoGain vfs dom oldDentry ⟨newDir.mnt, oldParentOf vfs oldDentry newDir⟩ newDir
  back : exchange = true →
    NoGain vfs dom newDentry newDir ⟨newDir.mnt, oldParentOf vfs oldDentry newDir⟩

theorem Harmless.answer {dom : Domain}
    (harmless : Harmless vfs dom.ruleset oldDentry newDir newDentry removable exchange) :
    currentCheckReferPath vfs (some dom.ruleset) oldDentry newDir newDentry removable exchange =
        .ok () ↔
      ReparentGrants vfs dom.ruleset oldDentry newDentry
        ⟨newDir.mnt, oldParentOf vfs oldDentry newDir⟩ newDir exchange
        (neededAtOld vfs oldDentry newDentry removable exchange)
        (neededAtNew vfs oldDentry newDentry removable) := by
  rw [currentCheckReferPath_apart dom.shape harmless.oldExists harmless.newExists harmless.apart]
  exact checkReparent_iff dom.shape harmless.oldOrdinary harmless.newOrdinary harmless.ends

/-- A harmless link or rename is allowed exactly when no file gains a right either as judged
without the last directory of the walks, or when both places grant everything. -/
theorem harmless_allowed_iff (vfs : Vfs) (dom : Domain) (oldDentry : Nat) (newDir : VfsPath)
    (newDentry : Nat) (removable exchange : Bool)
    (harmless : Harmless vfs dom.ruleset oldDentry newDir newDentry removable exchange) :
    currentCheckReferPath vfs (some dom.ruleset) oldDentry newDir newDentry removable exchange =
        .ok () ↔
      (NoGainBeforeLast vfs dom.ruleset oldDentry
            ⟨newDir.mnt, oldParentOf vfs oldDentry newDir⟩ newDir ∧
          (exchange = true → NoGainBeforeLast vfs dom.ruleset newDentry newDir
            ⟨newDir.mnt, oldParentOf vfs oldDentry newDir⟩)) ∨
        Provides vfs dom.ruleset ⟨newDir.mnt, oldParentOf vfs oldDentry newDir⟩
            landlockMaskAccessFs ∧
          Provides vfs dom.ruleset newDir landlockMaskAccessFs := by
  have atOld := harmless.atOld
  have atNew := harmless.atNew
  rw [harmless.answer]
  unfold ReparentGrants
  grind

end Harmless

section NestedMount

instance (layers : List LandlockLayer) (layer : Nat) (right : Right) :
    Decidable (LayersGrant layers layer right) :=
  inferInstanceAs (Decidable (∃ l ∈ layers, l.level.toNat = layer + 1 ∧
    l.access.getLsbD right = true))

instance (rule : Option LandlockRule) (layer : Nat) (right : Right) :
    Decidable (RuleGrants rule layer right) :=
  match rule with
  | none => .isFalse fun ⟨_, shown, _⟩ => nomatch shown
  | some r => decidable_of_iff (LayersGrant r.layers layer right)
      ⟨fun grants => ⟨r, rfl, grants⟩, fun ⟨_, shown, grants⟩ => Option.some.inj shown ▸ grants⟩

instance (vfs : Vfs) (dom : LandlockRuleset) (path : VfsPath) (layer : Nat) (right : Right) :
    Decidable (Granted vfs dom path layer right) :=
  inferInstanceAs (Decidable (∃ d ∈ visited vfs path,
    RuleGrants (findRule dom (vfs.dentries d)) layer right))

/-- Directories 1 and 2 below the root 0 of a mount, which is mounted on 9 below the real root
10; a file 3 in the first directory and a free name 4 in the second. The second directory and
the real root carry rules. -/
def nestedMount : Vfs where
  dentries d :=
    match d with
    | 3 => { parent := 1, inode := some { object := none, mode := 0o100644, isPrivate := false }
             noUser := false }
    | 4 => { parent := 2, inode := none, noUser := false }
    | 2 => { parent := 0, inode := some { object := some 5, mode := sIfdir, isPrivate := false }
             noUser := false }
    | 9 => { parent := 10, inode := some { object := none, mode := sIfdir, isPrivate := false }
             noUser := false }
    | 10 => { parent := 10, inode := some { object := some 7, mode := sIfdir, isPrivate := false }
              noUser := false }
    | _ => { parent := 0, inode := some { object := none, mode := sIfdir, isPrivate := false }
             noUser := false }
  mounts m :=
    if m = 0 then { root := 0, above := some ⟨1, 9⟩, internal := false }
    else { root := 10, above := none, internal := false }
  height p :=
    (if p.dentry = 0 ∨ p.dentry = 10 then 0 else if p.dentry = 3 ∨ p.dentry = 4 then 2 else 1) +
      if p.mnt = 0 then 10 else 0
  below_parent p inside notSelf := by
    dsimp only at notSelf ⊢
    split <;> simp_all
    rw [if_neg (Ne.symm notSelf)]
    exact Nat.one_pos
  below_mountpoint p up isRoot above := by
    by_cases outer : p.mnt = 0
    · simp only [outer, if_true, Option.some.injEq] at above isRoot
      subst above
      simp [outer, isRoot]
    · simp only [outer, if_false, reduceCtorEq] at above

/-- One layer that handles reading, writing, and the making and removal of files. The real root
grants all of them but writing, the second directory reading. -/
def readersLayer : Domain where
  ruleset :=
    { root := .node false (.node true .nil ⟨5, [⟨1, landlockAccessFsReadFile⟩]⟩ .nil)
        ⟨7, [⟨1, landlockAccessFsReadFile ||| landlockAccessFsMakeReg |||
          landlockAccessFsRemoveFile ||| landlockAccessFsRefer⟩]⟩ .nil
      hierarchy := some 0
      usage := 1
      numRules := 2
      fsAccessMasks := [landlockAccessFsReadFile ||| landlockAccessFsWriteFile |||
        landlockAccessFsMakeReg ||| landlockAccessFsRemoveFile] }
  shape := by
    refine ⟨⟨List.pairwise_pair.mpr (by decide), rfl, by decide⟩, by decide, by decide, by decide, ?_⟩
    intro rule member
    have single : ∀ access : U16, Stacked 1 [⟨1, access⟩] := by
      intro access
      refine ⟨List.cons_ne_nil _ _, List.pairwise_singleton _ _, ?_⟩
      intro layer inside
      rw [List.mem_singleton.mp inside]
      exact ⟨Nat.le_refl 1, Nat.le_refl 1⟩
    rcases List.mem_pair.mp member with rfl | rfl
    · exact single _
    · exact single _

/-- The right to write to a file. -/
def writing : Right := ⟨1, by decide⟩

theorem readersLayer_single (handles : LayerHandles readersLayer.ruleset layer right) :
    layer = 0 := by
  obtain ⟨mask, here, -⟩ := handles
  cases layer with
  | zero => rfl
  | succ layer => cases here

/-- Every one of these directories grants all but writing on its whole walk. -/
theorem nestedMount_granted : ∀ right : Right, right ≠ writing →
    LayerHandles readersLayer.ruleset 0 right →
      Granted nestedMount readersLayer.ruleset ⟨0, 1⟩ 0 right ∧
        Granted nestedMount readersLayer.ruleset ⟨0, 2⟩ 0 right := by
  have all : ∀ right : Right, right ≠ writing →
      ((landlockAccessFsReadFile ||| landlockAccessFsWriteFile ||| landlockAccessFsMakeReg |||
        landlockAccessFsRemoveFile) ||| accessInitiallyDenied).getLsbD right = true →
      Granted nestedMount readersLayer.ruleset ⟨0, 1⟩ 0 right ∧
        Granted nestedMount readersLayer.ruleset ⟨0, 2⟩ 0 right := by decide
  rintro right other ⟨mask, here, handles⟩
  cases here
  exact all right other handles

theorem nestedMount_harmless :
    Harmless nestedMount readersLayer.ruleset 3 ⟨0, 2⟩ 4 true false := by
  have top : Under nestedMount 0 0 := .root 0 rfl
  constructor
  · decide
  · decide
  · decide
  · exact ⟨.up 1 (by decide) rfl top, by decide, by decide⟩
  · exact ⟨.up 2 (by decide) rfl top, by decide, by decide⟩
  · decide
  · intro layer right requested handles
    have first := readersLayer_single handles
    subst first
    refine (nestedMount_granted right ?_ handles).1
    rintro rfl
    revert requested
    decide
  · intro layer right requested handles
    have first := readersLayer_single handles
    subst first
    refine (nestedMount_granted right ?_ handles).2
    rintro rfl
    revert requested
    decide
  · intro layer right handles _ granted
    have first := readersLayer_single handles
    subst first
    by_cases isWriting : right = writing
    · subst isWriting
      revert granted
      unfold ObjectGranted
      decide
    · exact .inr (nestedMount_granted right isWriting handles).1
  · exact fun isExchange => nomatch isExchange

/-- It is refused all the same: the rule of the real root comes after the last comparison. -/
theorem harmless_refused :
    Harmless nestedMount readersLayer.ruleset 3 ⟨0, 2⟩ 4 true false ∧
      currentCheckReferPath nestedMount (some readersLayer.ruleset) 3 ⟨0, 2⟩ 4 true false =
        .error .EXDEV :=
  ⟨nestedMount_harmless, by decide⟩

theorem harmless_allowed_iff_refused :
    ¬ ((NoGainBeforeLast nestedMount readersLayer.ruleset 3 ⟨0, 1⟩ ⟨0, 2⟩ ∧
        (false = true → NoGainBeforeLast nestedMount readersLayer.ruleset 4 ⟨0, 2⟩ ⟨0, 1⟩)) ∨
      Provides nestedMount readersLayer.ruleset ⟨0, 1⟩ landlockMaskAccessFs ∧
        Provides nestedMount readersLayer.ruleset ⟨0, 2⟩ landlockMaskAccessFs) := by
  intro granted
  exact absurd ((harmless_allowed_iff nestedMount readersLayer 3 ⟨0, 2⟩ 4 true false
    nestedMount_harmless).mpr granted) (by decide)

end NestedMount

end Ksrc.Guarantees.LandlockHarmless

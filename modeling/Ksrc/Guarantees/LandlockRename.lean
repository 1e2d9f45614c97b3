import Ksrc.Guarantees.LandlockRefer

/-!
# Links and renames between two directories never escalate

Source: `landlock/src/fs.c` (`collect_domain_accesses`, `current_check_refer_path`). What is
denied by the whole hierarchy of a parent directory is what its collected masks deny and the
rest of the walk does not grant.
-/
namespace Ksrc.Guarantees.LandlockRename

open Library Source LandlockShape LandlockMasks
  LandlockWalks LandlockPathAccess LandlockRefer

variable {vfs : Vfs} {dom : LandlockRuleset} {mnt dir : Nat} {masks : LayerMasks} {handled : U16}
  {turns : Nat}

/-- A directory below the root of a mount. -/
inductive Under (vfs : Vfs) (mnt : Nat) : Nat → Prop
  | root (dir : Nat) (isRoot : dir = (vfs.mounts mnt).root) : Under vfs mnt dir
  | up (dir : Nat) (inside : dir ≠ (vfs.mounts mnt).root) (notRoot : vfs.isRoot dir = false)
      (rest : Under vfs mnt (vfs.dentries dir).parent) : Under vfs mnt dir

/-- The path of the root of a mount. -/
def rootPath (vfs : Vfs) (mnt : Nat) : VfsPath := { mnt, dentry := (vfs.mounts mnt).root }

theorem ascend_below (inside : dir ≠ (vfs.mounts mnt).root) (notRoot : vfs.isRoot dir = false) :
    ascend vfs ⟨mnt, dir⟩ = .parent ⟨mnt, (vfs.dentries dir).parent⟩ := by
  rw [ascend_eq, if_neg inside, notRoot]
  rfl

/-- The walk from below the root of a mount passes it. -/
theorem Under.to_root (under : Under vfs mnt dir) :
    ending vfs ⟨mnt, dir⟩ = ending vfs (rootPath vfs mnt) ∧
      (vfs.mounts mnt).root ∈ visited vfs ⟨mnt, dir⟩ := by
  induction under with
  | root dir isRoot =>
    subst isRoot
    exact ⟨rfl, start_visited vfs ⟨mnt, (vfs.mounts mnt).root⟩⟩
  | up dir inside notRoot rest ih =>
    have ascends := ascend_below inside notRoot
    rw [ending_parent ascends, visited_parent ascends]
    exact ⟨ih.1, List.mem_cons_of_mem _ ih.2⟩

/-- Collecting only takes denials away. -/
theorem collectWalk_denies (shape : DomainShape dom) {layer : Nat} {right : Right}
    (denies : Denies (collectWalk vfs dom mnt handled turns dir masks).2 layer right) :
    Denies masks layer right := by
  induction turns generalizing dir masks with
  | zero => exact denies
  | succ turns ih =>
    have cleared := turn_cleared handled shape (vfs.dentries dir) masks layer right
    unfold collectWalk at denies
    dsimp only at denies
    split at denies
    · exact (cleared.mp denies).1
    · split at denies
      · exact (cleared.mp denies).1
      · exact (cleared.mp (ih denies)).1

/-- Collecting stops only where nothing is denied. -/
theorem collectWalk_fst
    (granted : (collectWalk vfs dom mnt handled turns dir masks).1 = true) :
    isEmptyFor handled (collectWalk vfs dom mnt handled turns dir masks).2 = true := by
  induction turns generalizing dir masks with
  | zero => cases granted
  | succ turns ih =>
    unfold collectWalk at granted ⊢
    dsimp only at granted ⊢
    split at granted
    · rename_i stops
      rw [if_pos stops]
      exact unmaskLayers_empty granted
    · rename_i goes
      rw [if_neg goes]
      split at granted
      · cases granted
      · rename_i notRoot
        rw [if_neg notRoot]
        exact ih granted

theorem not_denies_of_empty (empty : isEmptyFor handled masks = true)
    (within : Within handled masks)
    (layer : Nat) (right : Right) : ¬ Denies masks layer right := by
  intro denies
  exact isEmptyFor_iff.mp empty layer right (within layer right denies) denies

/-- What is left of the collected masks at the root is what the whole walk leaves. -/
theorem collectWalk_left (shape : DomainShape dom) (under : Under vfs mnt dir)
    (below : vfs.height ⟨mnt, dir⟩ < turns)
    (within : Within handled masks)
    (layer : Nat) (right : Right) :
    Left vfs dom (rootPath vfs mnt) (collectWalk vfs dom mnt handled turns dir masks).2 layer right ↔
      Left vfs dom ⟨mnt, dir⟩ masks layer right := by
  induction turns generalizing dir masks with
  | zero => omega
  | succ turns ih =>
    have cleared := turn_cleared handled shape (vfs.dentries dir) masks
    unfold collectWalk
    dsimp only
    split
    · rename_i stops
      have all : GrantsAll vfs dom ⟨mnt, dir⟩ handled masks := grantsAll_empty shape stops
      have none := not_denies_of_empty (unmaskLayers_empty stops) (within_turn shape _ within)
        layer right
      have nothing := not_left all within layer right
      unfold Left at nothing ⊢
      grind
    · cases under with
      | root _ isRoot =>
        rw [if_pos (Or.inl isRoot)]
        subst isRoot
        have here : RuleGrants (findRule dom (vfs.dentries (vfs.mounts mnt).root)) layer right →
            Granted vfs dom (rootPath vfs mnt) layer right := fun grants =>
          ⟨_, start_visited vfs (rootPath vfs mnt), grants⟩
        have inside := within layer right
        have change := cleared layer right
        unfold Left
        change Denies _ layer right ∧ ¬ Granted vfs dom (rootPath vfs mnt) layer right ↔
          Denies masks layer right ∧ ¬ Granted vfs dom (rootPath vfs mnt) layer right
        rw [change]
        grind
      | up _ inside notRoot rest =>
        have goesOn : ¬ (dir = (vfs.mounts mnt).root ∨ vfs.isRoot dir = true) := by
          rw [notRoot]
          simp only [inside, Bool.false_eq_true, or_self, not_false_eq_true]
        rw [if_neg goesOn]
        have ascends := ascend_below inside notRoot
        have lower := ascend_lower ascends
        rw [ih rest (by omega) (within_turn shape _ within)]
        exact left_parent shape ascends within layer right

theorem foldl_or_getLsbD (masks : List U16) (acc : U16) (bit : Nat) :
    (masks.foldl (· ||| ·) acc).getLsbD bit = true ↔
      acc.getLsbD bit = true ∨ ∃ mask ∈ masks, mask.getLsbD bit = true := by
  induction masks generalizing acc with
  | nil => simp only [List.foldl_nil, List.not_mem_nil, false_and, exists_const, or_false]
  | cons mask rest ih =>
    rw [List.foldl_cons, ih, BitVec.getLsbD_or, Bool.or_eq_true]
    simp only [List.mem_cons, exists_eq_or_imp, or_assoc]

/-- `get_handled_accesses` has every right that some layer handles. -/
theorem getHandledAccesses_requests {layer : Nat} {right : Right}
    (handles : LayerHandles dom layer right) : requests (getHandledAccesses dom) right = true := by
  have inMask : ∀ right : Right, landlockMaskAccessFs.getLsbD right = true := by decide
  obtain ⟨mask, here, set⟩ := handles
  rw [BitVec.getLsbD_or, Bool.or_eq_true] at set
  unfold requests getHandledAccesses
  rw [BitVec.getLsbD_and, inMask, Bool.and_true, foldl_or_getLsbD]
  rcases set with inLayer | initially
  · exact .inr ⟨mask, List.mem_of_getElem? here, inLayer⟩
  · exact .inl initially

/-- A parent hierarchy without the cases the code exempts. -/
structure Ordinary (vfs : Vfs) (path : VfsPath) : Prop where
  under : Under vfs path.mnt path.dentry
  users : ∀ d ∈ visited vfs path, (vfs.dentries d).isNouserOrPrivate = false
  outside : ending vfs path ≠ .disconnected true

theorem Ordinary.root (ordinary : Ordinary vfs ⟨mnt, dir⟩) :
    (vfs.dentries (vfs.mounts mnt).root).isNouserOrPrivate = false ∧
      ending vfs (rootPath vfs mnt) ≠ .disconnected true := by
  obtain ⟨same, passes⟩ := ordinary.under.to_root
  refine ⟨ordinary.users _ passes, ?_⟩
  rw [← same]
  exact ordinary.outside

theorem requests_all (right : Right) : requests landlockMaskAccessFs right = true := by
  revert right
  decide

/-- The masks of a domain deny only what they are made for. -/
theorem initLayerMasks_within (shape : DomainShape dom) (request : U16) :
    Within (initLayerMasks dom request).1 (initLayerMasks dom request).2 := by
  intro layer right denied
  have handles := (initLayerMasks_denies shape.mask_limit request layer right).mp denied
  exact (initLayerMasks_requests shape.mask_limit _ right).mpr ⟨handles.1, layer, handles.2⟩

/-- What `collect_domain_accesses` leaves of an ordinary hierarchy. -/
structure Collected (vfs : Vfs) (dom : LandlockRuleset) (mnt dir : Nat)
    (out : Bool × LayerMasks) : Prop where
  left : ∀ layer right, Left vfs dom (rootPath vfs mnt) out.2 layer right ↔
    LayerHandles dom layer right ∧ ¬ Granted vfs dom ⟨mnt, dir⟩ layer right
  handled : ∀ layer right, Denies out.2 layer right → LayerHandles dom layer right
  granted : out.1 = true → ∀ layer right, ¬ Denies out.2 layer right

theorem Collected.within {out : Bool × LayerMasks} (is : Collected vfs dom mnt dir out) :
    Within (getHandledAccesses dom) out.2 :=
  fun layer right denies => getHandledAccesses_requests (is.handled layer right denies)

theorem collectDomainAccesses_collected (shape : DomainShape dom)
    (ordinary : Ordinary vfs ⟨mnt, dir⟩) :
    Collected vfs dom mnt dir (collectDomainAccesses vfs dom mnt dir emptyMasks) := by
  have user := ordinary.users dir (start_visited vfs ⟨mnt, dir⟩)
  have denies := initLayerMasks_denies shape.mask_limit landlockMaskAccessFs
  have within := initLayerMasks_within shape landlockMaskAccessFs
  unfold collectDomainAccesses
  rw [user]
  dsimp only
  rw [if_neg Bool.false_ne_true]
  constructor
  · intro layer right
    rw [collectWalk_left shape ordinary.under (Nat.lt_succ_self _) within]
    unfold Left
    rw [denies]
    simp only [requests_all, true_and]
  · intro layer right here
    exact ((denies layer right).mp (collectWalk_denies shape here)).2
  · intro granted layer right
    exact not_denies_of_empty (collectWalk_fst granted)
      (fun layer right here => within layer right (collectWalk_denies shape here)) layer right

/-- What the own rule of a child leaves denied. -/
theorem childAccess_denies (shape : DomainShape dom) (dentry : Dentry) (layer : Nat)
    (right : Right) : Denies (childAccess dom dentry).masks layer right ↔
      LayerHandles dom layer right ∧ ¬ RuleGrants (findRule dom dentry) layer right := by
  have cleared := turn_cleared (initLayerMasks dom landlockMaskAccessFs).1 shape dentry
    (initLayerMasks dom landlockMaskAccessFs).2 layer right
  have denies := initLayerMasks_denies shape.mask_limit landlockMaskAccessFs layer right
  have handled := initLayerMasks_requests shape.mask_limit landlockMaskAccessFs right
  have all := requests_all right
  have some : LayerHandles dom layer right → ∃ layer, LayerHandles dom layer right :=
    fun handles => ⟨layer, handles⟩
  unfold childAccess
  dsimp only
  rw [cleared, denies, handled]
  grind

section Rename

/-- The parent directory of what is moved, as far as the mount shows it. -/
def oldParentOf (vfs : Vfs) (oldDentry : Nat) (newDir : VfsPath) : Nat :=
  if oldDentry = (vfs.mounts newDir.mnt).root then oldDentry else (vfs.dentries oldDentry).parent

/-- What the operation needs of the old parent: to make what comes in exchange, to remove what
goes, and to refer. -/
def neededAtOld (vfs : Vfs) (oldDentry newDentry : Nat) (removable exchange : Bool) : U16 :=
  (match exchange, (vfs.dentries newDentry).inode with
    | true, some newInode => getModeAccess newInode.mode
    | _, _ => 0) |||
  (if removable then maybeRemove (vfs.dentries oldDentry) else 0) ||| landlockAccessFsRefer

/-- What it needs of the new parent: to make what is moved, to remove what it replaces, and to
refer. -/
def neededAtNew (vfs : Vfs) (oldDentry newDentry : Nat) (removable : Bool) : U16 :=
  (match (vfs.dentries oldDentry).inode with
    | some oldInode => getModeAccess oldInode.mode
    | none => 0) |||
  (if removable then maybeRemove (vfs.dentries newDentry) else 0) ||| landlockAccessFsRefer

/-- What a file has of a right in a layer, by its own rule or by its parents. -/
def ObjectGranted (vfs : Vfs) (dom : LandlockRuleset) (path : VfsPath) (object : Nat) (layer : Nat)
    (right : Right) : Prop :=
  RuleGrants (findRule dom (vfs.dentries object)) layer right ∨ Granted vfs dom path layer right

/-- The rights that make sense for a file. -/
def MatterTo (dentry : Dentry) (right : Right) : Prop :=
  dentry.isDir = true ∨ isFileAccess right = true

/-- No right that matters to a file is granted at one place only. -/
def NoGain (vfs : Vfs) (dom : LandlockRuleset) (object : Nat) (old new : VfsPath) : Prop :=
  ∀ layer right, LayerHandles dom layer right → MatterTo (vfs.dentries object) right →
    ObjectGranted vfs dom new object layer right → ObjectGranted vfs dom old object layer right

/-- All layers grant what is needed of a parent hierarchy. -/
def Provides (vfs : Vfs) (dom : LandlockRuleset) (path : VfsPath) (needed : U16) : Prop :=
  ∀ layer right, requests needed right = true → LayerHandles dom layer right →
    Granted vfs dom path layer right

variable {oldDentry newDentry oldParent : Nat} {newDir : VfsPath} {removable exchange : Bool}
  {request1 request2 : U16} {out1 out2 : Bool × LayerMasks} {c2 : Option ChildAccess}

/-- The comparison of what is left, read for one child. -/
theorem noGain_of_left (shape : DomainShape dom) {object fromDir toDir : Nat}
    {outFrom outTo : Bool × LayerMasks} (isFrom : Collected vfs dom mnt fromDir outFrom)
    (isTo : Collected vfs dom mnt toDir outTo)
    (compares : ∀ layer right, Relevant (childAccess dom (vfs.dentries object)) right →
      Left vfs dom (rootPath vfs mnt) outFrom.2 layer right →
      Denies (childAccess dom (vfs.dentries object)).masks layer right →
        Left vfs dom (rootPath vfs mnt) outTo.2 layer right) :
    NoGain vfs dom object ⟨mnt, fromDir⟩ ⟨mnt, toDir⟩ := by
  intro layer right handles matters granted
  by_contra notGranted
  unfold ObjectGranted at granted notGranted
  have own : ¬ RuleGrants (findRule dom (vfs.dentries object)) layer right := by grind
  have denied := (childAccess_denies shape (vfs.dentries object) layer right).mpr ⟨handles, own⟩
  have leftFrom := (isFrom.left layer right).mpr ⟨handles, by grind⟩
  have leftTo := (isTo.left layer right).mp (compares layer right matters leftFrom denied)
  exact leftTo.2 (granted.resolve_left own)

theorem provides_of_grantsAll {needed : U16} (is : Collected vfs dom mnt dir out1)
    (all : GrantsAll vfs dom (rootPath vfs mnt) needed out1.2) :
    Provides vfs dom ⟨mnt, dir⟩ needed := by
  intro layer right requested handles
  by_contra notGranted
  have left := (is.left layer right).mpr ⟨handles, notGranted⟩
  exact left.2 (all layer right requested left.1)

/-- What a granted reparenting has shown. -/
structure SafeMove (vfs : Vfs) (dom : LandlockRuleset) (oldDentry newDentry : Nat)
    (old new : VfsPath) (exchange : Bool) (request1 request2 : U16) : Prop where
  forth : NoGain vfs dom oldDentry old new
  back : exchange = true → NoGain vfs dom newDentry new old
  atOld : Provides vfs dom old request1
  atNew : Provides vfs dom new request2

theorem safeMove_of_refers (shape : DomainShape dom) (isOld : Collected vfs dom mnt oldParent out1)
    (isNew : Collected vfs dom mnt dir out2)
    (isChild : c2 = if exchange then some (childAccess dom (vfs.dentries newDentry)) else none)
    (refers : Refers vfs dom (rootPath vfs mnt) request1 request2
      (childAccess dom (vfs.dentries oldDentry)) c2 out1.2 out2.2) :
    SafeMove vfs dom oldDentry newDentry ⟨mnt, oldParent⟩ ⟨mnt, dir⟩ exchange request1
      request2 := by
  constructor
  · exact noGain_of_left shape isOld isNew refers.forth
  · intro isExchange
    rw [isExchange, if_pos rfl] at isChild
    exact noGain_of_left shape isNew isOld (refers.back _ isChild)
  · exact provides_of_grantsAll isOld refers.first
  · exact provides_of_grantsAll isNew refers.second

/-- A check of two parents at the root of a mount is a walk that compares what the domain handles. -/
theorem isAccessToPathsAllowed_eq (shape : DomainShape dom) {child2 : Option Nat} {m1 m2 : LayerMasks}
    (real : request1 ≠ 0) (user : (vfs.dentries (vfs.mounts mnt).root).isNouserOrPrivate = false) :
    isAccessToPathsAllowed vfs dom (rootPath vfs mnt) request1 m1 (some oldDentry) request2 (some m2)
        child2 =
      accessWalk vfs dom request1 request2 (some (childAccess dom (vfs.dentries oldDentry)))
        (child2.map fun dentry => childAccess dom (vfs.dentries dentry))
        (vfs.height (rootPath vfs mnt) + 1) (rootPath vfs mnt)
        (domainWalk (getHandledAccesses dom) m1 m2) := by
  have layers : ¬ dom.numLayers < 1 := by
    have some := shape.some_mask
    omega
  have isUser : ¬ (vfs.dentries (rootPath vfs mnt).dentry).isNouserOrPrivate = true := by
    unfold rootPath
    rw [user]
    exact Bool.false_ne_true
  unfold isAccessToPathsAllowed domainWalk
  rw [if_neg fun both => real both.1, if_neg isUser, if_neg layers]
  simp only [Option.isSome_some, reduceCtorEq, and_false, if_false, false_and, if_true,
    Option.map_some]

/-- The masks of collected hierarchies are compared in a walk from the root of their mount. -/
theorem isAccessToPathsAllowed_refers (shape : DomainShape dom) {child2 : Option Nat}
    (isOld : Collected vfs dom mnt oldParent out1) (isNew : Collected vfs dom mnt dir out2)
    (real : request1 ≠ 0) (ordinary : Ordinary vfs ⟨mnt, dir⟩)
    (granted : (isAccessToPathsAllowed vfs dom (rootPath vfs mnt) request1 out1.2
      (some oldDentry) request2 (some out2.2) child2).1 = true) :
    Refers vfs dom (rootPath vfs mnt) request1 request2 (childAccess dom (vfs.dentries oldDentry))
      (child2.map fun dentry => childAccess dom (vfs.dentries dentry)) out1.2 out2.2 := by
  obtain ⟨user, outside⟩ := ordinary.root
  rw [isAccessToPathsAllowed_eq shape real user] at granted
  exact (accessWalk_refers shape isOld.within isNew.within granted).resolve_left outside

theorem or_refer_ne_zero (request : U16) : request ||| landlockAccessFsRefer ≠ 0 := by
  intro zero
  have bit := congrArg (fun mask : U16 => mask.getLsbD 13) zero
  simp only [BitVec.getLsbD_or, BitVec.ofNat_eq_ofNat, BitVec.getLsbD_zero, Bool.or_eq_false_iff]
    at bit
  exact absurd bit.2 (by decide)

/-- How `current_check_refer_path` lets a reparenting pass. -/
theorem checkReparent_ok (allowed : checkReparent vfs dom oldDentry newDir newDentry exchange
      request1 request2 = .ok ()) :
    ((collectDomainAccesses vfs dom newDir.mnt (oldParentOf vfs oldDentry newDir) emptyMasks).1 &&
        (collectDomainAccesses vfs dom newDir.mnt newDir.dentry emptyMasks).1) = true ∨
      (isAccessToPathsAllowed vfs dom (rootPath vfs newDir.mnt) (request1 ||| landlockAccessFsRefer)
        (collectDomainAccesses vfs dom newDir.mnt (oldParentOf vfs oldDentry newDir) emptyMasks).2
        (some oldDentry) (request2 ||| landlockAccessFsRefer)
        (some (collectDomainAccesses vfs dom newDir.mnt newDir.dentry emptyMasks).2)
        (if exchange then some newDentry else none)).1 = true := by
  by_contra neither
  rw [not_or] at neither
  unfold checkReparent at allowed
  extract_lets r1 r2 mntDir oldParent parent1 parent2 checked at allowed
  have noneGranted : ¬ (parent1.1 && parent2.1) = true := neither.1
  have notAllowed : ¬ checked.1 = true := neither.2
  rw [if_neg noneGranted, if_neg notAllowed] at allowed
  generalize (isEacces checked.2.1 r1 || _) = eacces at allowed
  cases eacces with
  | true => cases allowed
  | false => cases allowed

/-- What `current_check_refer_path` between two directories has shown. -/
theorem checkReparent_safe (shape : DomainShape dom)
    (oldOrdinary : Ordinary vfs ⟨newDir.mnt, oldParentOf vfs oldDentry newDir⟩)
    (newOrdinary : Ordinary vfs newDir)
    (allowed : checkReparent vfs dom oldDentry newDir newDentry exchange request1 request2 =
      .ok ()) :
    SafeMove vfs dom oldDentry newDentry ⟨newDir.mnt, oldParentOf vfs oldDentry newDir⟩ newDir
      exchange (request1 ||| landlockAccessFsRefer) (request2 ||| landlockAccessFsRefer) := by
  have isOld := collectDomainAccesses_collected shape oldOrdinary
  have isNew : Collected vfs dom newDir.mnt newDir.dentry
      (collectDomainAccesses vfs dom newDir.mnt newDir.dentry emptyMasks) :=
    collectDomainAccesses_collected shape newOrdinary
  rcases checkReparent_ok allowed with both | granted
  · obtain ⟨granted1, granted2⟩ := Bool.and_eq_true_iff.mp both
    exact safeMove_of_refers shape isOld isNew rfl (refers_of_none
      (fun layer right left => isOld.granted granted1 layer right left.1)
      (fun layer right left => isNew.granted granted2 layer right left.1))
  · have refers := isAccessToPathsAllowed_refers shape isOld isNew (or_refer_ne_zero request1)
      newOrdinary granted
    refine safeMove_of_refers shape isOld isNew ?_ refers
    cases exchange with
    | true => rfl
    | false => rfl

/-- A link or rename between two directories of a mount that `current_check_refer_path` lets
pass gives the moved file, and the one it is exchanged with, no right it did not have, and both
parent hierarchies grant what the operation needs. -/
theorem refer_never_escalates (vfs : Vfs) (dom : Domain) (oldDentry : Nat) (newDir : VfsPath)
    (newDentry : Nat) (removable exchange : Bool)
    (apart : (vfs.dentries oldDentry).parent ≠ newDir.dentry)
    (oldOrdinary : Ordinary vfs ⟨newDir.mnt, oldParentOf vfs oldDentry newDir⟩)
    (newOrdinary : Ordinary vfs newDir)
    (allowed : currentCheckReferPath vfs (some dom.ruleset) oldDentry newDir newDentry removable
      exchange = .ok ()) :
    NoGain vfs dom.ruleset oldDentry ⟨newDir.mnt, oldParentOf vfs oldDentry newDir⟩ newDir ∧
    (exchange = true → NoGain vfs dom.ruleset newDentry newDir
      ⟨newDir.mnt, oldParentOf vfs oldDentry newDir⟩) ∧
    Provides vfs dom.ruleset ⟨newDir.mnt, oldParentOf vfs oldDentry newDir⟩
      (neededAtOld vfs oldDentry newDentry removable exchange) ∧
    Provides vfs dom.ruleset newDir (neededAtNew vfs oldDentry newDentry removable) := by
  have layers : ¬ dom.ruleset.numLayers < 1 := by
    have some := dom.shape.some_mask
    omega
  unfold currentCheckReferPath at allowed
  simp only [if_neg layers] at allowed
  cases isOld : (vfs.dentries oldDentry).inode with
  | none =>
    rw [isOld] at allowed
    cases allowed
  | some oldInode =>
    simp only [isOld, if_neg apart] at allowed
    split at allowed
    · cases allowed
    · have safe := checkReparent_safe dom.shape oldOrdinary newOrdinary allowed
      refine ⟨safe.forth, safe.back, ?_, ?_⟩
      · have needs := safe.atOld
        unfold neededAtOld
        cases removable with
        | true => exact needs
        | false =>
          rw [if_neg Bool.false_ne_true, BitVec.ofNat_eq_ofNat, BitVec.or_zero]
          exact needs
      · have needs := safe.atNew
        unfold neededAtNew
        rw [isOld]
        cases removable with
        | true => exact needs
        | false =>
          rw [if_neg Bool.false_ne_true, BitVec.ofNat_eq_ofNat, BitVec.or_zero]
          exact needs

/-- Two directories 1 and 2 below the root 0, a file 3 in the first and a free name 4 in the
second. -/
def twoDirectories : Vfs where
  dentries d :=
    match d with
    | 3 => { parent := 1, inode := some { object := none, mode := 0o100644, isPrivate := false }
             noUser := false }
    | 4 => { parent := 2, inode := none, noUser := false }
    | _ => { parent := 0, inode := some { object := some 7, mode := sIfdir, isPrivate := false }
             noUser := false }
  mounts _ := { root := 0, above := none, internal := false }
  height p := if p.dentry = 0 then 0 else if p.dentry = 3 ∨ p.dentry = 4 then 2 else 1
  below_parent p inside _ := by
    dsimp only at inside ⊢
    split <;> simp_all
  below_mountpoint p up _ above := by cases above

/-- One layer that handles the making and removal of files, and grants them with the right to
refer below one object. -/
def oneLayer : Domain where
  ruleset :=
    { root := .node false .nil ⟨7, [⟨1, landlockAccessFsMakeReg ||| landlockAccessFsRemoveFile |||
        landlockAccessFsRefer⟩]⟩ .nil
      hierarchy := some 0
      usage := 1
      numRules := 1
      fsAccessMasks := [landlockAccessFsMakeReg ||| landlockAccessFsRemoveFile] }
  shape := by
    refine ⟨⟨List.pairwise_singleton _ _, rfl, by decide⟩, by decide, by decide, by decide, ?_⟩
    intro rule member
    rw [List.mem_singleton.mp member]
    refine ⟨List.cons_ne_nil _ _, List.pairwise_singleton _ _, ?_⟩
    intro layer inside
    rw [List.mem_singleton.mp inside]
    decide

theorem directory_ordinary (d : Nat) (is : d = 1 ∨ d = 2) : Ordinary twoDirectories ⟨0, d⟩ := by
  have top : Under twoDirectories 0 0 := .root 0 rfl
  rcases is with rfl | rfl
  · exact ⟨.up 1 (by decide) rfl top, by decide, by decide⟩
  · exact ⟨.up 2 (by decide) rfl top, by decide, by decide⟩

theorem refer_never_escalates_rename :
    NoGain twoDirectories oneLayer.ruleset 3 ⟨0, 1⟩ ⟨0, 2⟩ ∧
    (false = true → NoGain twoDirectories oneLayer.ruleset 4 ⟨0, 2⟩ ⟨0, 1⟩) ∧
    Provides twoDirectories oneLayer.ruleset ⟨0, 1⟩ (neededAtOld twoDirectories 3 4 true false) ∧
    Provides twoDirectories oneLayer.ruleset ⟨0, 2⟩ (neededAtNew twoDirectories 3 4 true) :=
  refer_never_escalates twoDirectories oneLayer 3 ⟨0, 2⟩ 4 true false (by decide)
    (directory_ordinary 1 (.inl rfl)) (directory_ordinary 2 (.inr rfl)) (by decide)

end Rename

end Ksrc.Guarantees.LandlockRename

import Ksrc.Source.LandlockRuleset

/-!
# Landlock checks of file paths

Source: `landlock/src/fs.c`. Dentries and mounts are what the walks of Landlock read of
them. `follow_up` moves to the mount point of the parent mount, as the file system layer
documents it. Neither dentries nor mounts form cycles: the height of a path falls with
each step up. References to dentries and paths, and RCU, are left out.
-/
namespace Ksrc.Source

open Library

/-- `struct inode`: the tied object, `i_mode` and `S_PRIVATE`. -/
structure LandlockInode where
  object : Option Nat
  mode : U16
  isPrivate : Bool
  deriving DecidableEq, Repr

/-- `struct dentry`; a negative one has no inode, a root is its own parent. -/
structure Dentry where
  parent : Nat
  inode : Option LandlockInode
  noUser : Bool
  deriving DecidableEq, Repr

/-- `struct path`. -/
structure VfsPath where
  mnt : Nat
  dentry : Nat
  deriving DecidableEq, Repr

/-- `struct vfsmount` with the place `follow_up` moves to, none for the real root. -/
structure Mount where
  root : Nat
  above : Option VfsPath
  internal : Bool
  deriving DecidableEq, Repr

structure Vfs where
  dentries : Nat → Dentry
  mounts : Nat → Mount
  height : VfsPath → Nat
  below_parent : ∀ path : VfsPath, path.dentry ≠ (mounts path.mnt).root →
    (dentries path.dentry).parent ≠ path.dentry →
    height ⟨path.mnt, (dentries path.dentry).parent⟩ < height path
  below_mountpoint : ∀ path up : VfsPath, path.dentry = (mounts path.mnt).root →
    (mounts path.mnt).above = some up → height up < height path

def sIfmt : U16 := 0o170000
def sIfsock : U16 := 0o140000
def sIflnk : U16 := 0o120000
def sIfblk : U16 := 0o060000
def sIfdir : U16 := 0o040000
def sIfchr : U16 := 0o020000
def sIfifo : U16 := 0o010000

namespace Dentry

/-- `d_is_dir`. -/
def isDir (d : Dentry) : Bool :=
  match d.inode with
  | some inode => inode.mode &&& sIfmt == sIfdir
  | none => false

/-- `is_nouser_or_private`. -/
def isNouserOrPrivate (d : Dentry) : Bool :=
  d.noUser || match d.inode with
    | some inode => inode.isPrivate
    | none => false

end Dentry

namespace Vfs

/-- `IS_ROOT`. -/
def isRoot (vfs : Vfs) (dentry : Nat) : Bool := (vfs.dentries dentry).parent == dentry

end Vfs

/-- How a turn of a walk ends: at the parent directory, at the real root, or at a
disconnected root of a mount that may be internal. -/
inductive Ascent where
  | parent (path : VfsPath)
  | realRoot
  | disconnected (internal : Bool)
  deriving DecidableEq, Repr

/-- From the label `jump_up` to the next turn or the end. -/
def jumpUp (vfs : Vfs) : Nat → VfsPath → Ascent
  | 0, _ => .realRoot
  | turns + 1, path =>
    if path.dentry = (vfs.mounts path.mnt).root then
      match (vfs.mounts path.mnt).above with
      | some up => jumpUp vfs turns up
      | none => .realRoot
    else if vfs.isRoot path.dentry then .disconnected (vfs.mounts path.mnt).internal
    else .parent { path with dentry := (vfs.dentries path.dentry).parent }

/-- The height bounds the turns. -/
def ascend (vfs : Vfs) (path : VfsPath) : Ascent := jumpUp vfs (vfs.height path + 1) path

def accessFile : U16 :=
  landlockAccessFsExecute ||| landlockAccessFsWriteFile ||| landlockAccessFsReadFile |||
    landlockAccessFsTruncate

def accessInitiallyDenied : U16 := landlockAccessFsRefer

/-- `landlock_append_fs_rule`, for the answer of `get_inode_object`. -/
def landlockAppendFsRule (color : RbInsertColor) (ruleset : LandlockRuleset) (dentry : Dentry)
    (accessRights : U16) (object : Except Errno Nat) (allocs : List Bool) :
    Except Refusal LandlockRuleset × List Bool :=
  if !dentry.isDir ∧ accessRights ||| accessFile ≠ accessFile then
    (.error (.err .EINVAL), allocs)
  else if ruleset.numLayers ≠ 1 then (.error (.warn .EINVAL), allocs)
  else
    let accessRights := accessRights |||
      (landlockMaskAccessFs &&& ~~~(ruleset.fsAccessMasks.headD 0 ||| accessInitiallyDenied))
    match object with
    | .error e => (.error (.err e), allocs)
    | .ok object => landlockInsertRule color ruleset (some object) accessRights allocs

/-- `find_rule`. -/
def findRule (domain : LandlockRuleset) (dentry : Dentry) : Option LandlockRule :=
  match dentry.inode with
  | none => none
  | some inode => landlockFindRule domain inode.object

/-- `layer_mask_t [LANDLOCK_NUM_ACCESS_FS]`: for each access right the layers that have not
granted it. -/
abbrev LayerMasks := Fin landlockNumAccessFs → U16

/-- A matrix of zeros. -/
def emptyMasks : LayerMasks := fun _ => 0

/-- Whether the loop over the bits of a request visits a right. -/
def requests (request : U16) (right : Fin landlockNumAccessFs) : Bool :=
  request.getLsbD right

/-- What `unmask_layers` does for a layer of the rule. -/
def unmaskLayer (request : U16) (layer : LandlockLayer) (masks : LayerMasks) : LayerMasks :=
  let layerBit : U16 := 1#16 <<< (layer.level - 1).toNat
  fun right =>
    if requests request right ∧ layer.access.getLsbD right then masks right &&& ~~~layerBit
    else masks right

/-- `is_empty`. -/
def isEmptyFor (request : U16) (masks : LayerMasks) : Bool :=
  decide (∀ right, requests request right → masks right = 0)

def unmaskRule (request : U16) : List LandlockLayer → LayerMasks → Bool × LayerMasks
  | [], masks => (false, masks)
  | layer :: rest, masks =>
    let masks := unmaskLayer request layer masks
    if isEmptyFor request masks then (true, masks) else unmaskRule request rest masks

/-- `unmask_layers`. -/
def unmaskLayers (rule : Option LandlockRule) (accessRequest : U16) (masks : LayerMasks) :
    Bool × LayerMasks :=
  if accessRequest = 0 then (true, masks)
  else
    match rule with
    | none => (false, masks)
    | some rule => unmaskRule accessRequest rule.layers masks

/-- `unmask_layers` of masks that may be `NULL`. -/
def unmaskLayersOpt (rule : Option LandlockRule) (accessRequest : U16) :
    Option LayerMasks → Bool × Option LayerMasks
  | none => (true, none)
  | some masks =>
    let unmasked := unmaskLayers rule accessRequest masks
    (unmasked.1, some unmasked.2)

/-- `get_handled_accesses`. -/
def getHandledAccesses (domain : LandlockRuleset) : U16 :=
  domain.fsAccessMasks.foldl (· ||| ·) accessInitiallyDenied &&& landlockMaskAccessFs

/-- What `init_layer_masks` does for the layer at an index. -/
def initLayer (accessRequest : U16) (acc : U16 × LayerMasks) (layer : U16 × Nat) :
    U16 × LayerMasks :=
  let handled := accessRequest &&& (layer.1 ||| accessInitiallyDenied) &&& landlockMaskAccessFs
  (acc.1 ||| handled,
    fun right =>
      if requests handled right then acc.2 right ||| (1#16 <<< layer.2) else acc.2 right)

/-- `init_layer_masks`: the handled accesses and the masks. -/
def initLayerMasks (domain : LandlockRuleset) (accessRequest : U16) : U16 × LayerMasks :=
  if accessRequest = 0 then (0, emptyMasks)
  else domain.fsAccessMasks.zipIdx.foldl (initLayer accessRequest) (0, emptyMasks)

/-- The masks of a child and whether it is a directory. -/
structure ChildAccess where
  masks : LayerMasks
  isDirectory : Bool

def isFileAccess (right : Fin landlockNumAccessFs) : Bool := accessFile.getLsbD right

/-- `no_more_access`. -/
def noMoreAccess (parent1 : LayerMasks) (child1 : ChildAccess) (parent2 : LayerMasks)
    (child2 : Option ChildAccess) : Bool :=
  (List.finRange landlockNumAccessFs).all fun right =>
    (!(child1.isDirectory || isFileAccess right) ||
      (parent1 right &&& child1.masks right) ||| parent2 right == parent2 right) &&
    match child2 with
    | none => true
    | some child2 =>
      !(child2.isDirectory || isFileAccess right) ||
        (parent2 right &&& child2.masks right) ||| parent1 right == parent1 right

/-- `scope_to_request`. -/
def scopeToRequest (accessRequest : U16) (masks : LayerMasks) : Bool × LayerMasks :=
  let masks : LayerMasks := fun right => if requests accessRequest right then masks right else 0
  (decide (∀ right, masks right = 0), masks)

/-- `is_eacces`. -/
def isEacces (masks : LayerMasks) (accessRequest : U16) : Bool :=
  let accessCheck := accessRequest &&& ~~~landlockAccessFsRefer
  (List.finRange landlockNumAccessFs).any fun right =>
    requests accessCheck right && masks right != 0

/-- The locals of `is_access_to_paths_allowed` that change from turn to turn. -/
structure AccessWalk where
  isDomCheck : Bool
  accessMasked1 : U16
  accessMasked2 : U16
  masks1 : LayerMasks
  masks2 : Option LayerMasks

/-- The start of a turn: whether the walk ends with all accesses granted. -/
def referCheck (request1 request2 : U16) (child1 child2 : Option ChildAccess) (s : AccessWalk) :
    Bool × AccessWalk :=
  match s.isDomCheck, s.masks2, child1 with
  | true, some masks2, some child1 =>
    if noMoreAccess s.masks1 child1 masks2 child2 then
      let scoped1 := scopeToRequest request1 s.masks1
      let scoped2 := scopeToRequest request2 masks2
      let s := { s with masks1 := scoped1.2, masks2 := some scoped2.2 }
      if scoped1.1 && scoped2.1 then (true, s)
      else
        -- the remaining checks fall from the handled accesses to the requested ones
        (false, { s with isDomCheck := false, accessMasked1 := request1, accessMasked2 := request2 })
    else (false, s)
  | _, _, _ => (false, s)

/-- The loop of `is_access_to_paths_allowed`; the height bounds its turns. -/
def accessWalk (vfs : Vfs) (domain : LandlockRuleset) (request1 request2 : U16)
    (child1 child2 : Option ChildAccess) :
    Nat → VfsPath → AccessWalk → Bool × LayerMasks × Option LayerMasks
  | 0, _, s => (false, s.masks1, s.masks2)
  | turns + 1, path, s =>
    match referCheck request1 request2 child1 child2 s with
    | (true, s) => (true, s.masks1, s.masks2)
    | (false, s) =>
      let rule := findRule domain (vfs.dentries path.dentry)
      let unmasked1 := unmaskLayers rule s.accessMasked1 s.masks1
      let unmasked2 := unmaskLayersOpt rule s.accessMasked2 s.masks2
      if unmasked1.1 && unmasked2.1 then (true, unmasked1.2, unmasked2.2)
      else
        match ascend vfs path with
        | .parent up =>
          accessWalk vfs domain request1 request2 child1 child2 turns up
            { s with masks1 := unmasked1.2, masks2 := unmasked2.2 }
        | .realRoot => (unmasked1.1 && unmasked2.1, unmasked1.2, unmasked2.2)
        | .disconnected internal => (internal, unmasked1.2, unmasked2.2)

/-- The masks `is_access_to_paths_allowed` gives a child. -/
def childAccess (domain : LandlockRuleset) (dentry : Dentry) : ChildAccess :=
  let init := initLayerMasks domain landlockMaskAccessFs
  { masks := (unmaskLayers (findRule domain dentry) init.1 init.2).2
    isDirectory := dentry.isDir }

/-- `is_access_to_paths_allowed`, with the masks it leaves. -/
def isAccessToPathsAllowed (vfs : Vfs) (domain : LandlockRuleset) (path : VfsPath)
    (request1 : U16) (masks1 : LayerMasks) (child1 : Option Nat) (request2 : U16)
    (masks2 : Option LayerMasks) (child2 : Option Nat) : Bool × LayerMasks × Option LayerMasks :=
  if request1 = 0 ∧ request2 = 0 then (true, masks1, masks2)
  else if (vfs.dentries path.dentry).isNouserOrPrivate then (true, masks1, masks2)
  else if domain.numLayers < 1 then (false, masks1, masks2)
  else if masks2.isSome ∧ child1 = none then (false, masks1, masks2)
  else if masks2 = none ∧ (child1.isSome ∨ child2.isSome) then (false, masks1, masks2)
  else
    let handled := getHandledAccesses domain
    accessWalk vfs domain request1 request2
      (child1.map fun dentry => childAccess domain (vfs.dentries dentry))
      (child2.map fun dentry => childAccess domain (vfs.dentries dentry))
      (vfs.height path + 1) path
      { isDomCheck := masks2.isSome
        accessMasked1 := if masks2.isSome then handled else request1
        accessMasked2 := if masks2.isSome then handled else request2
        masks1
        masks2 }

/-- `check_access_path`. -/
def checkAccessPath (vfs : Vfs) (domain : LandlockRuleset) (path : VfsPath)
    (accessRequest : U16) : Except Errno Unit :=
  let init := initLayerMasks domain accessRequest
  if (isAccessToPathsAllowed vfs domain path init.1 init.2 none 0 none none).1 then .ok ()
  else .error .EACCES

/-- `get_mode_access`. -/
def getModeAccess (mode : U16) : U16 :=
  let format := mode &&& sIfmt
  if format = sIflnk then landlockAccessFsMakeSym
  else if format = sIfdir then landlockAccessFsMakeDir
  else if format = sIfchr then landlockAccessFsMakeChar
  else if format = sIfblk then landlockAccessFsMakeBlock
  else if format = sIfifo then landlockAccessFsMakeFifo
  else if format = sIfsock then landlockAccessFsMakeSock
  else landlockAccessFsMakeReg

/-- `maybe_remove`. -/
def maybeRemove (dentry : Dentry) : U16 :=
  if dentry.inode.isNone then 0
  else if dentry.isDir then landlockAccessFsRemoveDir
  else landlockAccessFsRemoveFile

/-- The loop of `collect_domain_accesses`, up to the root of the mount. -/
def collectWalk (vfs : Vfs) (domain : LandlockRuleset) (mnt : Nat) (accessDom : U16) :
    Nat → Nat → LayerMasks → Bool × LayerMasks
  | 0, _, masks => (false, masks)
  | turns + 1, dir, masks =>
    let unmasked := unmaskLayers (findRule domain (vfs.dentries dir)) accessDom masks
    if unmasked.1 then unmasked
    else if dir = (vfs.mounts mnt).root ∨ vfs.isRoot dir then (false, unmasked.2)
    else collectWalk vfs domain mnt accessDom turns (vfs.dentries dir).parent unmasked.2

/-- `collect_domain_accesses`, for the root of a mount. -/
def collectDomainAccesses (vfs : Vfs) (domain : LandlockRuleset) (mnt dir : Nat)
    (masks : LayerMasks) : Bool × LayerMasks :=
  if (vfs.dentries dir).isNouserOrPrivate then (true, masks)
  else
    let init := initLayerMasks domain landlockMaskAccessFs
    collectWalk vfs domain mnt init.1 (vfs.height ⟨mnt, dir⟩ + 1) dir init.2

/-- `current_check_refer_path` between two parent directories. -/
def checkReparent (vfs : Vfs) (dom : LandlockRuleset) (oldDentry : Nat) (newDir : VfsPath)
    (newDentry : Nat) (exchange : Bool) (request1 request2 : U16) : Except Errno Unit :=
  let request1 := request1 ||| landlockAccessFsRefer
  let request2 := request2 ||| landlockAccessFsRefer
  let mntDir : VfsPath := { mnt := newDir.mnt, dentry := (vfs.mounts newDir.mnt).root }
  let oldParent :=
    if oldDentry = mntDir.dentry then oldDentry else (vfs.dentries oldDentry).parent
  let parent1 := collectDomainAccesses vfs dom mntDir.mnt oldParent emptyMasks
  let parent2 := collectDomainAccesses vfs dom mntDir.mnt newDir.dentry emptyMasks
  if parent1.1 && parent2.1 then .ok ()
  else
    let checked := isAccessToPathsAllowed vfs dom mntDir request1 parent1.2 (some oldDentry)
      request2 (some parent2.2) (if exchange then some newDentry else none)
    if checked.1 then .ok ()
    else if isEacces checked.2.1 request1 ||
        (match checked.2.2 with
          | some masks2 => isEacces masks2 request2
          | none => false) then .error .EACCES
    else .error .EXDEV

/-- `current_check_refer_path`. -/
def currentCheckReferPath (vfs : Vfs) (dom : Option LandlockRuleset) (oldDentry : Nat)
    (newDir : VfsPath) (newDentry : Nat) (removable exchange : Bool) : Except Errno Unit :=
  match dom with
  | none => .ok ()
  | some dom =>
    if dom.numLayers < 1 then .error .EACCES
    else
      match (vfs.dentries oldDentry).inode with
      | none => .error .ENOENT
      | some oldInode =>
        if exchange ∧ (vfs.dentries newDentry).inode = none then .error .ENOENT
        else
          let make1 := match exchange, (vfs.dentries newDentry).inode with
            | true, some newInode => getModeAccess newInode.mode
            | _, _ => 0
          let make2 := getModeAccess oldInode.mode
          let request1 := if removable then make1 ||| maybeRemove (vfs.dentries oldDentry) else make1
          let request2 := if removable then make2 ||| maybeRemove (vfs.dentries newDentry) else make2
          if (vfs.dentries oldDentry).parent = newDir.dentry then
            checkAccessPath vfs dom newDir (request1 ||| request2)
          else checkReparent vfs dom oldDentry newDir newDentry exchange request1 request2

/-- `hook_path_link`. -/
def hookPathLink (vfs : Vfs) (dom : Option LandlockRuleset) (oldDentry : Nat) (newDir : VfsPath)
    (newDentry : Nat) : Except Errno Unit :=
  currentCheckReferPath vfs dom oldDentry newDir newDentry false false

/-- `hook_path_rename`; the flag is `RENAME_EXCHANGE`. -/
def hookPathRename (vfs : Vfs) (dom : Option LandlockRuleset) (oldDentry : Nat)
    (newDir : VfsPath) (newDentry : Nat) (renameExchange : Bool) : Except Errno Unit :=
  currentCheckReferPath vfs dom oldDentry newDir newDentry true renameExchange

end Ksrc.Source

import Ksrc.Source.LandlockFs

/-!
# Landlock rights of open files

Source: `landlock/src/fs.c` (`current_check_access_path` and the file hooks) and
`landlock/src/fs.h`. A file is what the hooks read of `struct file` and its security blob.
-/
namespace Ksrc.Source

/-- `struct file` with the `i_mode` of `file_inode` and its `struct landlock_file_security`. -/
structure LandlockFile where
  fPath : VfsPath
  iMode : U16
  fMode : U32
  fFlags : U32
  allowedAccess : U16
  deriving DecidableEq, Repr

/-- `FMODE_READ`. -/
def fmodeRead : U32 := 0x1

/-- `FMODE_WRITE`. -/
def fmodeWrite : U32 := 0x2

/-- `__FMODE_EXEC`. -/
def fmodeExec : U32 := 0x20

/-- `current_check_access_path`. -/
def currentCheckAccessPath (vfs : Vfs) (dom : Option LandlockRuleset) (path : VfsPath)
    (accessRequest : U16) : Except Errno Unit :=
  match dom with
  | none => .ok ()
  | some dom => checkAccessPath vfs dom path accessRequest

/-- `get_required_file_open_access`. -/
def getRequiredFileOpenAccess (file : LandlockFile) : U16 :=
  if file.fMode &&& fmodeRead ≠ 0 ∧ file.iMode &&& sIfmt = sIfdir then
    -- a directory can only be opened in read mode
    landlockAccessFsReadDir
  else
    let read := if file.fMode &&& fmodeRead ≠ 0 then landlockAccessFsReadFile else 0
    let write := if file.fMode &&& fmodeWrite ≠ 0 then landlockAccessFsWriteFile else 0
    let exec := if file.fFlags &&& fmodeExec ≠ 0 then landlockAccessFsExecute else 0
    read ||| write ||| exec

/-- `hook_file_alloc_security`. -/
def hookFileAllocSecurity (file : LandlockFile) : LandlockFile :=
  { file with allowedAccess := landlockMaskAccessFs }

/-- What `hook_file_open` checks: the rights the mode requires and the optional ones. -/
def fullAccessRequest (file : LandlockFile) : U16 :=
  getRequiredFileOpenAccess file ||| landlockAccessFsTruncate

/-- One turn of the loop over the bits of a request in `hook_file_open`. -/
def addUnvetoed (request : U16) (masks : LayerMasks) (allowed : U16)
    (right : Fin landlockNumAccessFs) : U16 :=
  if requests request right ∧ masks right = 0 then allowed ||| (1#16 <<< right.val) else allowed

/-- The requested rights that no layer vetoes. -/
def unvetoed (request : U16) (masks : LayerMasks) : U16 :=
  (List.finRange landlockNumAccessFs).foldl (addUnvetoed request masks) 0

/-- `hook_file_open`: its answer and the file it leaves. -/
def hookFileOpen (vfs : Vfs) (dom : Option LandlockRuleset) (file : LandlockFile) :
    Except Errno Unit × LandlockFile :=
  match dom with
  | none => (.ok (), file)
  | some dom =>
    let openRequest := getRequiredFileOpenAccess file
    let fullRequest := fullAccessRequest file
    let init := initLayerMasks dom fullRequest
    let walked := isAccessToPathsAllowed vfs dom file.fPath init.1 init.2 none 0 none none
    let allowedAccess := if walked.1 then fullRequest else unvetoed fullRequest walked.2.1
    (if openRequest &&& allowedAccess = openRequest then .ok () else .error .EACCES,
      { file with allowedAccess })

/-- `hook_file_truncate`. -/
def hookFileTruncate (file : LandlockFile) : Except Errno Unit :=
  if file.allowedAccess &&& landlockAccessFsTruncate ≠ 0 then .ok () else .error .EACCES

end Ksrc.Source

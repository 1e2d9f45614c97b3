import Ksrc.Source.PolicydbRead

/-!
# Labels of a filesystem by path

Source: `security/selinux/ss/services.c` (`__security_genfs_sid`, `ocontext_to_sid`).
-/
namespace Ksrc.Source

/-- `strncmp`, on strings without their terminators. -/
def strncmp : Nat → Name → Name → Int
  | 0, _, _ => 0
  | _ + 1, [], [] => 0
  | _ + 1, [], _ :: _ => -1
  | _ + 1, _ :: _, [] => 1
  | n + 1, a :: as, b :: bs =>
    if a = b then strncmp n as bs else if a.toNat < b.toNat then -1 else 1

def slash : U8 := 0x2f

/-- `while (path[0] == '/' && path[1] == '/') path++;` -/
def skipSlashes : Name → Name
  | a :: b :: path => if a = slash ∧ b = slash then skipSlashes (b :: path) else a :: b :: path
  | path => path

/-- The walk over the filesystem types, which are in the order of their names. -/
def genfsFindType (fstype : Name) : List Genfs → Option Genfs
  | [] => none
  | genfs :: next =>
    if strcmp fstype genfs.fstype ≤ 0 then
      if strcmp fstype genfs.fstype = 0 then some genfs else none
    else genfsFindType fstype next

/-- The walk over the entries of a filesystem type. -/
def genfsFindEntry (path : Name) (sclass : U16) : List Ocontext → Option Ocontext
  | [] => none
  | c :: next =>
    if (c.v = 0 ∨ sclass.zeroExtend 32 = c.v) ∧ strncmp c.uName.length c.uName path = 0 then some c
    else genfsFindEntry path sclass next

/-- `ocontext_to_sid`, of the first context; the SID that it finds stays in the `ocontext`. -/
def ocontextToSid (j : Jhash) (s target : Sidtab) (c : Ocontext) (allocs targetAllocs : List Bool)
    (fault : Option Context) (converted : ConvertOutcome) :
    Option (Except Errno U32 × Sidtab × Sidtab × Ocontext) :=
  if c.sid0 ≠ 0 then some (.ok c.sid0, s, target, c)
  else
    (sidtabContextToSid j s target c.context0 allocs targetAllocs fault converted).map
      fun (answer, s, target) =>
        match answer with
        | .error e => (.error e, s, target, c)
        | .ok sid => (.ok sid, s, target, { c with sid0 := sid })

/-- The entry that `__security_genfs_sid` takes. -/
def genfsFind (genfs : List Genfs) (map : SelinuxMap) (fstype path : Name) (origSclass : U16) :
    Option Ocontext :=
  match genfsFindType fstype genfs with
  | none => none
  | some g => genfsFindEntry (skipSlashes path) (unmapClass map origSclass) g.head

/-- `__security_genfs_sid`: its error, what it leaves in `*sid`, and the entry with the SID that it found;
`none` is a fault of the SID table. -/
def securityGenfsSid (j : Jhash) (genfs : List Genfs) (map : SelinuxMap) (s target : Sidtab)
    (fstype path : Name) (origSclass : U16) (allocs targetAllocs : List Bool)
    (fault : Option Context) (converted : ConvertOutcome) :
    Option ((Option Errno × U32) × Sidtab × Sidtab × Option Ocontext) :=
  match genfsFind genfs map fstype path origSclass with
  | none => some ((some .ENOENT, BitVec.ofNat 32 secinitsidUnlabeled), s, target, none)
  | some c =>
    (ocontextToSid j s target c allocs targetAllocs fault converted).map
      fun (answer, s, target, c) =>
        match answer with
        | .error e => ((some e, BitVec.ofNat 32 secinitsidUnlabeled), s, target, some c)
        | .ok sid => ((none, sid), s, target, some c)

end Ksrc.Source

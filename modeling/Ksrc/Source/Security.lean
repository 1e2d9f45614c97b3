import Mathlib.Data.Nat.Bitwise
import Mathlib.Logic.Function.Basic

/-!
# Security server interface: words, error numbers, decisions

Source: `security/selinux/include/security.h` (`av_decision`,
`extended_perms_data`, `extended_perms_decision`, `extended_perms`,
`security_xperm_set`, `security_xperm_test`).

Machine integers are bit vectors of the width the source declares. A pointer
that may be `NULL` is an `Option` of what it points to.
-/
namespace Ksrc.Source

abbrev U8 := BitVec 8
abbrev U16 := BitVec 16
abbrev U32 := BitVec 32
abbrev U64 := BitVec 64

/-- The error numbers the modelled functions return (as `-E...` in the source). -/
inductive Errno where
  | EPERM | ENOENT | EAGAIN | ENOMEM | EACCES | EFAULT | EBUSY | EEXIST | EINVAL
  | ENOSPC | ERANGE | ENAMETOOLONG | EOVERFLOW | ESTALE | E2BIG | ENOMSG | EXDEV | EBADF | EBADFD
  | ENOEXEC | EDOM | EOPNOTSUPP
  deriving DecidableEq, Repr

structure AvDecision where
  allowed : U32
  auditallow : U32
  auditdeny : U32
  seqno : U32
  flags : U32
  deriving DecidableEq, Repr

/-- `AVD_FLAGS_PERMISSIVE`. -/
def avdFlagsPermissive : U32 := 0x0001

def xpermsAllowed : U8 := 1
def xpermsAuditallow : U8 := 2
def xpermsDontaudit : U8 := 4

/-- `struct extended_perms_data`: 256 bits in eight words. -/
structure ExtendedPermsData where
  p : Vector U32 8
  deriving DecidableEq, Repr

namespace ExtendedPermsData

def zero : ExtendedPermsData := ⟨Vector.replicate 8 0⟩

def ones : ExtendedPermsData := ⟨Vector.replicate 8 0xffffffff⟩

/-- Word-wise `|=` of two maps. -/
def or (a b : ExtendedPermsData) : ExtendedPermsData :=
  ⟨Vector.zipWith (· ||| ·) a.p b.p⟩

end ExtendedPermsData

theorem shiftRight_five_lt (x : U8) : (x >>> 5).toNat < 8 := by
  have := x.isLt
  simp only [BitVec.toNat_ushiftRight, Nat.shiftRight_eq_div_pow]
  omega

/-- `security_xperm_set(perms, x)`. -/
def securityXpermSet (perms : ExtendedPermsData) (x : U8) : ExtendedPermsData :=
  let i := (x >>> 5).toNat
  have hi : i < 8 := shiftRight_five_lt x
  ⟨perms.p.set i (perms.p[i] ||| (1#32 <<< (x &&& 0x1f).toNat))⟩

/-- `security_xperm_test(perms, x)`. -/
def securityXpermTest (perms : ExtendedPermsData) (x : U8) : Bool :=
  let i := (x >>> 5).toNat
  have hi : i < 8 := shiftRight_five_lt x
  1 &&& (perms.p[i] >>> (x &&& 0x1f).toNat) ≠ 0#32

/-- The test reads one bit of the word that holds it. -/
theorem securityXpermTest_eq (perms : ExtendedPermsData) (x : U8) :
    securityXpermTest perms x =
      (perms.p.get ⟨(x >>> 5).toNat, shiftRight_five_lt x⟩).getLsbD (x &&& 0x1f).toNat := by
  have hb : ∀ (w : U32) (n : Nat), (decide (1 &&& (w >>> n) ≠ 0#32)) = w.getLsbD n := by
    intro w n
    have hone : (1 &&& (w >>> n)) = if w.getLsbD n then 1#32 else 0#32 := by
      apply BitVec.eq_of_getLsbD_eq
      intro i hi
      by_cases h0 : i = 0
      · subst h0
        cases hw : w.getLsbD n <;> simp [hw]
      · have h1 : (1#32).getLsbD i = false := by
          simp [BitVec.getLsbD_one, h0]
        cases hw : w.getLsbD n <;> simp [h1]
    rw [hone]
    cases w.getLsbD n <;> decide
  unfold securityXpermTest
  exact hb _ _

structure ExtendedPerms where
  len : U16
  drivers : ExtendedPermsData
  deriving DecidableEq, Repr

/-- `struct extended_perms_decision`; the three maps are pointers. -/
structure ExtendedPermsDecision where
  used : U8
  driver : U8
  allowed : Option ExtendedPermsData
  auditallow : Option ExtendedPermsData
  dontaudit : Option ExtendedPermsData
  deriving DecidableEq, Repr

/-- The two questions the access vector cache asks the security server
(`security_compute_av`, `security_compute_xperms_decision`). -/
structure SecurityServer where
  securityComputeAv : U32 → U32 → U16 → AvDecision × ExtendedPerms
  securityComputeXpermsDecision : U32 → U32 → U16 → U8 → ExtendedPermsDecision

end Ksrc.Source

import Ksrc.Source.Policydb

/-!
# The contexts that a user can reach

Source: `security/selinux/ss/mls_types.h`, `mls.c` (`mls_setup_user_range`),
`security/selinux/ss/services.c` (`security_get_user_sids`).
-/
namespace Ksrc.Source

/-- `mls_level_between`. -/
def mlsLevelBetween (l1 l2 l3 : MlsLevel) : Bool := mlsLevelDom l1 l2 && mlsLevelDom l3 l1

section Range

variable (p : Policydb) (fromcon : Context) (user : UserDatum)

/-- The sensitivity level that `mls_setup_user_range` computes. -/
def userconSen : Option MlsLevel :=
  if mlsLevelBetween user.dfltlevel fromcon.range.low fromcon.range.high then some user.dfltlevel
  else if mlsLevelBetween fromcon.range.low user.dfltlevel user.range.high then some fromcon.range.low
  else if mlsLevelBetween fromcon.range.high user.range.low user.dfltlevel then some user.range.low
  else none

/-- The clearance that `mls_setup_user_range` computes. -/
def userconClr : Option MlsLevel :=
  if mlsLevelDom user.range.high fromcon.range.high then some fromcon.range.high
  else if mlsLevelDom fromcon.range.high user.range.high then some user.range.high
  else none

/-- `mls_setup_user_range`. -/
def mlsSetupUserRange (usercon : Context) : Except Errno Context :=
  if p.mlsEnabled then
    match userconSen fromcon user with
    | none => .error .EINVAL
    | some low =>
      match userconClr fromcon user with
      | none => .error .EINVAL
      | some high => .ok { usercon with range := { low, high } }
  else .ok usercon

end Range

/-- What `security_get_user_sids` keeps in its loops: `usercon`, `mysids`, and the contexts that were
handed to `sidtab_context_to_sid`. -/
structure UserSids where
  usercon : Context
  mysids : List U32
  entered : List Context

section Loops

variable (p : Policydb) (fromcon : Context) (user : UserDatum) (answer : Nat → Except Errno U32)

/-- The loop over the types of a role; `answer n` is what the `n`-th call of `sidtab_context_to_sid`
gives, or the failure to make `mysids` longer after it. -/
def userTypesLoop : List U32 → UserSids → UserSids × Option Fault
  | [], s => (s, none)
  | j :: rest, s =>
    let usercon := { s.usercon with type := j + 1 }
    match mlsSetupUserRange p fromcon user usercon with
    | .error _ => userTypesLoop rest { s with usercon }
    | .ok usercon =>
      let s' := { s with usercon, entered := s.entered ++ [usercon] }
      match answer s.entered.length with
      | .error e => (s', some (.err e))
      | .ok sid => userTypesLoop rest { s' with mysids := s.mysids ++ [sid] }

/-- The loop over the roles of the user. -/
def userRolesLoop : List U32 → UserSids → UserSids × Option Fault
  | [], s => (s, none)
  | i :: rest, s =>
    match p.roleValToStruct[i.toNat]?.join with
    | none => (s, some .oops)
    | some role =>
      match userTypesLoop p fromcon user answer (ebitmapPositiveBits role.types)
          { s with usercon := { s.usercon with role := i + 1 } } with
      | (s, none) => userRolesLoop rest s
      | (s, some fault) => (s, some fault)

end Loops

/-- `security_get_user_sids` up to `out_unlock`; `fromcon` is what `sidtab_search` finds. An `ESTALE`
starts it again, with the policy that is then in force. -/
def securityGetUserSids (p : Policydb) (fromcon : Option Context) (username : Name)
    (answer : Nat → Except Errno U32) : UserSids × Option Fault :=
  let start : UserSids := { usercon := contextInit, mysids := [], entered := [] }
  match fromcon with
  | none => (start, some einval)
  | some fromcon =>
    match symtabSearch p.pUsers username with
    | none => (start, some einval)
    | some user =>
      userRolesLoop p fromcon user answer (ebitmapPositiveBits user.roles)
        { start with usercon := { contextInit with user := user.value } }

end Ksrc.Source

import Ksrc.Guarantees.BoundsCheck
import Ksrc.Guarantees.ContextRoundTrip
import Ksrc.Guarantees.LevelValidity
import Ksrc.Guarantees.LoadedSlots
import Ksrc.Source.UserSids

/-!
# The contexts that a user can reach are legal

Source: `security/selinux/ss/mls.c` (`mls_setup_user_range`),
`security/selinux/ss/services.c` (`security_get_user_sids`), `policydb.c` (`user_read`).

The contexts are entered without a check. They are legal where the default level of the user and the
rest of what is read for users and roles is as it should be, which the loader does not test.
-/
namespace Ksrc.Guarantees.UserContexts

open Library Source EbitmapBits EbitmapFiles
  LevelValidity PolicyImages

section Levels

variable {l l1 l2 l3 : MlsLevel}

theorem dom_iff (built1 : Built l1.cat) (built2 : Built l2.cat) : mlsLevelDom l1 l2 = true ↔
    l2.sens ≤ l1.sens ∧ Covers l1.cat l2.cat ∧ ∀ b, InBitmap l2.cat b → InBitmap l1.cat b := by
  unfold mlsLevelDom
  rw [Bool.and_eq_true, decide_eq_true_eq, contains_iff built1 built2]
  simp

theorem dom_refl (built : Built l.cat) : mlsLevelDom l l = true := by
  refine (dom_iff built built).mpr ⟨BitVec.le_refl _, ⟨BitVec.le_refl _, ?_⟩, fun _ inside => inside⟩
  exact fun n member => ⟨n, member, rfl⟩

/-- Dominance is transitive. -/
theorem dom_trans (built1 : Built l1.cat) (built2 : Built l2.cat) (built3 : Built l3.cat)
    (upper : mlsLevelDom l1 l2 = true) (lower : mlsLevelDom l2 l3 = true) : mlsLevelDom l1 l3 = true := by
  rw [dom_iff built1 built2] at upper
  rw [dom_iff built2 built3] at lower
  obtain ⟨sens, ⟨high, nodes⟩, bits⟩ := upper
  obtain ⟨sens', ⟨high', nodes'⟩, bits'⟩ := lower
  refine (dom_iff built1 built3).mpr ⟨BitVec.le_trans sens' sens, ⟨BitVec.le_trans high' high, ?_⟩, ?_⟩
  · intro n3 member
    obtain ⟨n2, member2, same⟩ := nodes' n3 member
    obtain ⟨n1, member1, same'⟩ := nodes n2 member2
    exact ⟨n1, member1, same'.trans same⟩
  · exact fun b inside => bits b (bits' b inside)

end Levels

/-- A range with bitmaps as they are built. -/
structure RangeBuilt (r : MlsRange) : Prop where
  low : Built r.low.cat
  high : Built r.high.cat

/-- The levels of a user as they are read. -/
structure UserBuilt (user : UserDatum) : Prop where
  roles : Built user.roles
  range : RangeBuilt user.range
  default : Built user.dfltlevel.cat

section Ranges

variable (p : Policydb) (fromcon : Context) (user : UserDatum)

/-- The default level lies in the range of the starting context. -/
def KeepsDefault : Prop := mlsLevelBetween user.dfltlevel fromcon.range.low fromcon.range.high = true

/-- The level of the starting context lies between the default level and the clearance of the user. -/
def KeepsStart : Prop := mlsLevelBetween fromcon.range.low user.dfltlevel user.range.high = true

/-- The clearance of the starting context lies between the low and the default level of the user. -/
def TakesLow : Prop := mlsLevelBetween fromcon.range.high user.range.low user.dfltlevel = true

/-- The user is cleared for the clearance of the starting context. -/
def Cleared : Prop := mlsLevelDom user.range.high fromcon.range.high = true

/-- The levels of the user and of the starting context can be compared. -/
def Comparable : Prop :=
  (KeepsDefault fromcon user ∨ KeepsStart fromcon user ∨ TakesLow fromcon user) ∧
    (Cleared fromcon user ∨ mlsLevelDom fromcon.range.high user.range.high = true)

/-- The levels that are chosen lie in a range. -/
structure RangeFits (r : MlsRange) : Prop where
  default : KeepsDefault fromcon user → mlsLevelDom user.dfltlevel r.low = true
  start : ¬ KeepsDefault fromcon user → KeepsStart fromcon user → mlsLevelDom fromcon.range.low r.low = true
  low : ¬ KeepsDefault fromcon user → ¬ KeepsStart fromcon user → mlsLevelDom user.range.low r.low = true
  lowered : Cleared fromcon user → mlsLevelDom r.high fromcon.range.high = true
  own : ¬ Cleared fromcon user → mlsLevelDom r.high user.range.high = true

/-- The clearance of the user dominates the level that is chosen. -/
structure LevelsOrdered : Prop where
  default : KeepsDefault fromcon user → mlsLevelDom user.range.high user.dfltlevel = true
  low : ¬ KeepsDefault fromcon user → ¬ KeepsStart fromcon user →
    mlsLevelDom user.range.high user.range.low = true

/-- The levels of the user that are chosen are valid. -/
structure LevelsValid : Prop where
  default : KeepsDefault fromcon user → mlsLevelIsvalid p user.dfltlevel = .ok true
  low : ¬ KeepsDefault fromcon user → ¬ KeepsStart fromcon user →
    mlsLevelIsvalid p user.range.low = .ok true
  own : ¬ Cleared fromcon user → mlsLevelIsvalid p user.range.high = .ok true

end Ranges

section Setup

variable {p : Policydb} {fromcon usercon c : Context} {user : UserDatum} {low high : MlsLevel}

/-- The level that is chosen, case by case. -/
theorem userconSen_cases (chosen : userconSen fromcon user = some low) :
    (KeepsDefault fromcon user ∧ low = user.dfltlevel) ∨
    (¬ KeepsDefault fromcon user ∧ KeepsStart fromcon user ∧ low = fromcon.range.low) ∨
    (¬ KeepsDefault fromcon user ∧ ¬ KeepsStart fromcon user ∧ TakesLow fromcon user ∧
      low = user.range.low) := by
  unfold userconSen at chosen
  split at chosen
  · rename_i between
    cases chosen
    exact .inl ⟨between, rfl⟩
  rename_i notDefault
  split at chosen
  · rename_i between
    cases chosen
    exact .inr (.inl ⟨notDefault, between, rfl⟩)
  rename_i notStart
  split at chosen
  · rename_i between
    cases chosen
    exact .inr (.inr ⟨notDefault, notStart, between, rfl⟩)
  · cases chosen

theorem userconClr_cases (chosen : userconClr fromcon user = some high) :
    (Cleared fromcon user ∧ high = fromcon.range.high) ∨
    (¬ Cleared fromcon user ∧ mlsLevelDom fromcon.range.high user.range.high = true ∧
      high = user.range.high) := by
  unfold userconClr at chosen
  split at chosen
  · rename_i cleared
    cases chosen
    exact .inl ⟨cleared, rfl⟩
  rename_i notCleared
  split at chosen
  · rename_i above
    cases chosen
    exact .inr ⟨notCleared, above, rfl⟩
  · cases chosen

theorem rangeFits_iff {r : MlsRange} (sen : userconSen fromcon user = some low)
    (clr : userconClr fromcon user = some high) :
    mlsRangeContains r { low, high } = true ↔ RangeFits fromcon user r := by
  unfold mlsRangeContains
  rw [Bool.and_eq_true]
  constructor
  · rintro ⟨lower, upper⟩
    dsimp only at lower upper
    constructor
    · intro keeps
      rcases userconSen_cases sen with ⟨-, rfl⟩ | ⟨not, -⟩ | ⟨not, -⟩
      · exact lower
      · exact absurd keeps not
      · exact absurd keeps not
    · intro not start
      rcases userconSen_cases sen with ⟨keeps, -⟩ | ⟨-, -, rfl⟩ | ⟨-, notStart, -⟩
      · exact absurd keeps not
      · exact lower
      · exact absurd start notStart
    · intro not notStart
      rcases userconSen_cases sen with ⟨keeps, -⟩ | ⟨-, start, -⟩ | ⟨-, -, -, rfl⟩
      · exact absurd keeps not
      · exact absurd start notStart
      · exact lower
    · intro cleared
      rcases userconClr_cases clr with ⟨-, rfl⟩ | ⟨not, -⟩
      · exact upper
      · exact absurd cleared not
    · intro not
      rcases userconClr_cases clr with ⟨cleared, -⟩ | ⟨-, -, rfl⟩
      · exact absurd cleared not
      · exact upper
  · intro fits
    constructor
    · rcases userconSen_cases sen with ⟨keeps, rfl⟩ | ⟨not, start, rfl⟩ | ⟨not, notStart, -, rfl⟩
      · exact fits.default keeps
      · exact fits.start not start
      · exact fits.low not notStart
    · rcases userconClr_cases clr with ⟨cleared, rfl⟩ | ⟨not, -, rfl⟩
      · exact fits.lowered cleared
      · exact fits.own not

theorem between_iff {l1 l2 l3 : MlsLevel} : mlsLevelBetween l1 l2 l3 = true ↔
    mlsLevelDom l1 l2 = true ∧ mlsLevelDom l3 l1 = true := by
  rw [mlsLevelBetween, Bool.and_eq_true]

/-- The high level dominates the low one. -/
theorem ordered_iff (start : RangeBuilt fromcon.range) (built : UserBuilt user)
    (valid : mlsLevelDom fromcon.range.high fromcon.range.low = true)
    (sen : userconSen fromcon user = some low) (clr : userconClr fromcon user = some high) :
    mlsLevelDom high low = true ↔ LevelsOrdered fromcon user := by
  constructor
  · intro ordered
    constructor
    · intro keeps
      rcases userconClr_cases clr with ⟨cleared, rfl⟩ | ⟨-, -, rfl⟩
      · exact dom_trans built.range.high start.high built.default cleared (between_iff.mp keeps).2
      · rcases userconSen_cases sen with ⟨-, rfl⟩ | ⟨not, -⟩ | ⟨not, -⟩
        · exact ordered
        · exact absurd keeps not
        · exact absurd keeps not
    · intro not notStart
      rcases userconSen_cases sen with ⟨keeps, -⟩ | ⟨-, starts, -⟩ | ⟨-, -, takes, rfl⟩
      · exact absurd keeps not
      · exact absurd starts notStart
      · rcases userconClr_cases clr with ⟨cleared, rfl⟩ | ⟨-, -, rfl⟩
        · exact dom_trans built.range.high start.high built.range.low cleared (between_iff.mp takes).1
        · exact ordered
  · intro ordered
    rcases userconClr_cases clr with ⟨cleared, rfl⟩ | ⟨-, -, rfl⟩
    · rcases userconSen_cases sen with ⟨keeps, rfl⟩ | ⟨-, -, rfl⟩ | ⟨-, -, takes, rfl⟩
      · exact (between_iff.mp keeps).2
      · exact valid
      · exact (between_iff.mp takes).1
    · rcases userconSen_cases sen with ⟨keeps, rfl⟩ | ⟨-, starts, rfl⟩ | ⟨not, notStart, -, rfl⟩
      · exact ordered.default keeps
      · exact (between_iff.mp starts).2
      · exact ordered.low not notStart

theorem levels_valid_iff (startLow : mlsLevelIsvalid p fromcon.range.low = .ok true)
    (startHigh : mlsLevelIsvalid p fromcon.range.high = .ok true)
    (sen : userconSen fromcon user = some low) (clr : userconClr fromcon user = some high) :
    (mlsLevelIsvalid p low = .ok true ∧ mlsLevelIsvalid p high = .ok true) ↔
      LevelsValid p fromcon user := by
  constructor
  · rintro ⟨validLow, validHigh⟩
    constructor
    · intro keeps
      rcases userconSen_cases sen with ⟨-, rfl⟩ | ⟨not, -⟩ | ⟨not, -⟩
      · exact validLow
      · exact absurd keeps not
      · exact absurd keeps not
    · intro not notStart
      rcases userconSen_cases sen with ⟨keeps, -⟩ | ⟨-, starts, -⟩ | ⟨-, -, -, rfl⟩
      · exact absurd keeps not
      · exact absurd starts notStart
      · exact validLow
    · intro not
      rcases userconClr_cases clr with ⟨cleared, -⟩ | ⟨-, -, rfl⟩
      · exact absurd cleared not
      · exact validHigh
  · intro valid
    constructor
    · rcases userconSen_cases sen with ⟨keeps, rfl⟩ | ⟨-, -, rfl⟩ | ⟨not, notStart, -, rfl⟩
      · exact valid.default keeps
      · exact startLow
      · exact valid.low not notStart
    · rcases userconClr_cases clr with ⟨-, rfl⟩ | ⟨not, -, rfl⟩
      · exact startHigh
      · exact valid.own not

theorem comparable_iff : Comparable fromcon user ↔
    ∃ low high, userconSen fromcon user = some low ∧ userconClr fromcon user = some high := by
  constructor
  · rintro ⟨levels, clearances⟩
    have sen : ∃ low, userconSen fromcon user = some low := by
      unfold userconSen
      split
      · exact ⟨_, rfl⟩
      rename_i notDefault
      split
      · exact ⟨_, rfl⟩
      rename_i notStart
      have takes : mlsLevelBetween fromcon.range.high user.range.low user.dfltlevel = true :=
        (levels.resolve_left notDefault).resolve_left notStart
      rw [if_pos takes]
      exact ⟨_, rfl⟩
    have clr : ∃ high, userconClr fromcon user = some high := by
      unfold userconClr
      split
      · exact ⟨_, rfl⟩
      rename_i notCleared
      have above : mlsLevelDom fromcon.range.high user.range.high = true :=
        clearances.resolve_left notCleared
      rw [if_pos above]
      exact ⟨_, rfl⟩
    obtain ⟨low, sen⟩ := sen
    obtain ⟨high, clr⟩ := clr
    exact ⟨low, high, sen, clr⟩
  · rintro ⟨low, high, sen, clr⟩
    constructor
    · rcases userconSen_cases sen with ⟨keeps, -⟩ | ⟨-, starts, -⟩ | ⟨-, -, takes, -⟩
      · exact .inl keeps
      · exact .inr (.inl starts)
      · exact .inr (.inr takes)
    · rcases userconClr_cases clr with ⟨cleared, -⟩ | ⟨-, above, -⟩
      · exact .inl cleared
      · exact .inr above

/-- What a successful `mls_setup_user_range` does. -/
theorem setup_ok (setup : mlsSetupUserRange p fromcon user usercon = .ok c) :
    (p.mlsEnabled = false ∧ c = usercon) ∨
    (p.mlsEnabled = true ∧ ∃ low high, userconSen fromcon user = some low ∧
      userconClr fromcon user = some high ∧ c = { usercon with range := { low, high } }) := by
  unfold mlsSetupUserRange at setup
  split at setup
  · rename_i enabled
    split at setup
    · cases setup
    rename_i low sen
    split at setup
    · cases setup
    rename_i high clr
    cases setup
    exact .inr ⟨enabled, low, high, sen, clr, rfl⟩
  · rename_i disabled
    cases setup
    exact .inl ⟨Bool.eq_false_of_not_eq_true disabled, rfl⟩

theorem setup_of_comparable (comparable : p.mlsEnabled = true → Comparable fromcon user) :
    ∃ c, mlsSetupUserRange p fromcon user usercon = .ok c := by
  unfold mlsSetupUserRange
  split
  · rename_i enabled
    obtain ⟨low, high, sen, clr⟩ := comparable_iff.mp (comparable enabled)
    rw [sen, clr]
    exact ⟨_, rfl⟩
  · exact ⟨_, rfl⟩

theorem comparable_of_setup (setup : mlsSetupUserRange p fromcon user usercon = .ok c)
    (enabled : p.mlsEnabled = true) : Comparable fromcon user := by
  rcases setup_ok setup with ⟨disabled, -⟩ | ⟨-, low, high, sen, clr, -⟩
  · rw [enabled] at disabled
    cases disabled
  · exact comparable_iff.mpr ⟨low, high, sen, clr⟩

/-- The range of a reachable context: in order, in the range of the user and within the clearance of the
starting context. -/
structure RangeLegal (fromcon : Context) (user : UserDatum) (r : MlsRange) : Prop where
  ordered : mlsLevelDom r.high r.low = true
  within : mlsRangeContains user.range r = true
  cleared : mlsLevelDom fromcon.range.high r.high = true

theorem rangeLegal_iff (start : RangeBuilt fromcon.range) (built : UserBuilt user)
    (valid : mlsLevelDom fromcon.range.high fromcon.range.low = true)
    (sen : userconSen fromcon user = some low) (clr : userconClr fromcon user = some high) :
    RangeLegal fromcon user { low, high } ↔
      RangeFits fromcon user user.range ∧ LevelsOrdered fromcon user := by
  rw [← rangeFits_iff sen clr, ← ordered_iff start built valid sen clr]
  constructor
  · exact fun legal => ⟨legal.within, legal.ordered⟩
  · rintro ⟨within, ordered⟩
    refine ⟨ordered, within, ?_⟩
    rcases userconClr_cases clr with ⟨-, rfl⟩ | ⟨-, above, rfl⟩
    · exact dom_refl start.high
    · exact above

end Setup

section Checks

variable {p : Policydb} {c : Context} {r : MlsRange} {user owner : UserDatum} {role : RoleDatum} {i j : U32}

theorem rangeIsvalid_iff : mlsRangeIsvalid p r = .ok true ↔
    (mlsLevelIsvalid p r.low = .ok true ∧ mlsLevelIsvalid p r.high = .ok true) ∧
      mlsLevelDom r.high r.low = true := by
  unfold mlsRangeIsvalid
  simp only [exceptBind_ok]
  constructor
  · rintro ⟨low, readLow, answer⟩
    cases low with
    | false => cases answer
    | true =>
      simp only [if_true, exceptBind_ok] at answer
      obtain ⟨high, readHigh, answer⟩ := answer
      cases high with
      | false => cases answer
      | true => exact ⟨⟨readLow, readHigh⟩, Except.ok.inj answer⟩
  · rintro ⟨⟨low, high⟩, dom⟩
    refine ⟨true, low, ?_⟩
    simp only [if_true, exceptBind_ok]
    refine ⟨true, high, ?_⟩
    rw [if_pos rfl, dom]
    rfl

theorem toNat_succ (inside : i.toNat < 2 ^ 32 - 1) : (i + 1).toNat = i.toNat + 1 := by
  bv_omega

/-- The MLS part of the check. -/
theorem mlsContextIsvalid_iff (slot : atValue p.userValToStruct c.user = .ok (some owner))
    (valid : valueIsvalid p.pUsers.nprim c.user = true) : mlsContextIsvalid p c = .ok true ↔
    (p.mlsEnabled = true → mlsRangeIsvalid p c.range = .ok true ∧
      (c.role ≠ objectRVal → mlsRangeContains owner.range c.range = true)) := by
  obtain ⟨nonzero, inside, -⟩ := NamedContexts.valid_inside valid
  unfold mlsContextIsvalid
  split
  · rename_i disabled
    exact iff_of_true rfl fun enabled => absurd enabled disabled
  rename_i enabled
  rw [not_not] at enabled
  rw [exceptBind_ok]
  constructor
  · rintro ⟨range, readRange, answer⟩ -
    cases range with
    | false => cases answer
    | true =>
      refine ⟨readRange, fun other => ?_⟩
      rw [if_pos rfl, if_neg other, if_neg (fun out => out.elim nonzero fun past =>
        BitVec.not_lt.mpr inside past)] at answer
      simp only [exceptBind_ok, slot, derefPtr] at answer
      obtain ⟨_, same, _, deref, answer⟩ := answer
      cases same
      cases deref
      exact Except.ok.inj answer
  · intro all
    obtain ⟨readRange, contains⟩ := all enabled
    refine ⟨true, readRange, ?_⟩
    rw [if_pos rfl]
    split
    · rfl
    rename_i other
    rw [if_neg (fun out => out.elim nonzero fun past => BitVec.not_lt.mpr inside past)]
    simp only [exceptBind_ok, slot, derefPtr]
    exact ⟨_, rfl, _, rfl, congrArg Except.ok (contains other)⟩

/-- The check of a context whose role and user are there and whose role has the type. -/
theorem contextIsvalid_iff (roleSlot : atValue p.roleValToStruct c.role = .ok (some role))
    (userSlot : atValue p.userValToStruct c.user = .ok (some owner))
    (roleValid : valueIsvalid p.pRoles.nprim c.role = true)
    (userValid : valueIsvalid p.pUsers.nprim c.user = true)
    (typed : ebitmapGetBit role.types (c.type - 1).toNat = true) :
    policydbContextIsvalid p c = .ok true ↔ valueIsvalid p.pTypes.nprim c.type = true ∧
      (c.role ≠ objectRVal → ebitmapGetBit owner.roles (c.role - 1).toNat = true) ∧
      mlsContextIsvalid p c = .ok true := by
  obtain ⟨roleNonzero, roleInside, -⟩ := NamedContexts.valid_inside roleValid
  obtain ⟨userNonzero, userInside, -⟩ := NamedContexts.valid_inside userValid
  unfold policydbContextIsvalid
  rw [if_neg (fun out => out.elim roleNonzero fun past => BitVec.not_lt.mpr roleInside past),
    if_neg (fun out => out.elim userNonzero fun past => BitVec.not_lt.mpr userInside past)]
  split
  · rename_i out
    refine iff_of_false (fun answer => nomatch answer) ?_
    rintro ⟨typeValid, -⟩
    obtain ⟨nonzero, inside, -⟩ := NamedContexts.valid_inside typeValid
    exact out.elim nonzero fun past => BitVec.not_lt.mpr inside past
  rename_i inside
  obtain ⟨nonzero, notPast⟩ := not_or.mp inside
  have typeValid : valueIsvalid p.pTypes.nprim c.type = true := by
    unfold valueIsvalid
    rw [Bool.and_eq_true, decide_eq_true_eq, decide_eq_true_eq]
    exact ⟨nonzero, BitVec.not_lt.mp notPast⟩
  split
  · rename_i other
    simp only [roleSlot, userSlot, bind, Except.bind, typed, if_true]
    split
    · rename_i authorized
      exact ⟨fun mls => ⟨typeValid, fun _ => authorized, mls⟩, fun all => all.2.2⟩
    · rename_i unauthorized
      exact iff_of_false (fun answer => nomatch answer) fun all => unauthorized (all.2.1 other)
  · rename_i object
    rw [not_not] at object
    exact ⟨fun mls => ⟨typeValid, fun other => absurd object other, mls⟩, fun all => all.2.2⟩

end Checks

section Loops

variable {p : Policydb} {fromcon usercon c : Context} {user : UserDatum} {answer : Nat → Except Errno U32}
  {role i j : U32} {s : UserSids}

/-- `usercon` in the loops: the range is left over from the round before where it will be set again. -/
structure Prepared (p : Policydb) (user : UserDatum) (usercon : Context) : Prop where
  user : usercon.user = user.value
  str : usercon.str = none
  range : p.mlsEnabled = false → usercon.range = contextInit.range

/-- The context of a user with a role and a type, before its range is set. -/
def userContext (user : UserDatum) (role type : U32) : Context :=
  { contextInit with user := user.value, role, type }

/-- What is left over in `usercon` does not matter. -/
theorem setup_prepared (prepared : Prepared p user usercon) (type : U32) :
    mlsSetupUserRange p fromcon user { usercon with type } =
      mlsSetupUserRange p fromcon user (userContext user usercon.role type) := by
  obtain ⟨user', role, type', range, str⟩ := usercon
  obtain ⟨rfl, rfl, left⟩ := prepared
  unfold mlsSetupUserRange userContext
  by_cases enabled : p.mlsEnabled = true
  · rw [if_pos enabled, if_pos enabled]
    rfl
  · rw [if_neg enabled, if_neg enabled]
    dsimp only at left ⊢
    rw [left (Bool.eq_false_of_not_eq_true enabled)]
    rfl

theorem setup_keeps (setup : mlsSetupUserRange p fromcon user usercon = .ok c) :
    c.user = usercon.user ∧ c.role = usercon.role ∧ c.type = usercon.type ∧ c.str = usercon.str ∧
      (p.mlsEnabled = false → c.range = usercon.range) := by
  rcases setup_ok setup with ⟨-, rfl⟩ | ⟨enabled, _, _, -, -, rfl⟩
  · exact ⟨rfl, rfl, rfl, rfl, fun _ => rfl⟩
  · refine ⟨rfl, rfl, rfl, rfl, fun disabled => ?_⟩
    rw [enabled] at disabled
    cases disabled

theorem Prepared.setup (prepared : Prepared p user usercon)
    (setup : mlsSetupUserRange p fromcon user usercon = .ok c) : Prepared p user c := by
  obtain ⟨sameUser, -, -, sameStr, sameRange⟩ := setup_keeps setup
  exact ⟨sameUser.trans prepared.user, sameStr.trans prepared.str,
    fun disabled => (sameRange disabled).trans (prepared.range disabled)⟩

/-- What the loop over the types of a role enters, and all of it where it is not stopped. -/
structure TypesEntered (p : Policydb) (fromcon : Context) (user : UserDatum) (types : List U32)
    (s : UserSids) (done : UserSids × Option Fault) : Prop where
  prepared : Prepared p user done.1.usercon
  old : ∀ c ∈ s.entered, c ∈ done.1.entered
  new : ∀ c ∈ done.1.entered, c ∈ s.entered ∨ ∃ j ∈ types,
    mlsSetupUserRange p fromcon user (userContext user s.usercon.role (j + 1)) = .ok c
  all : done.2 = none → ∀ j ∈ types, ∀ c,
    mlsSetupUserRange p fromcon user (userContext user s.usercon.role (j + 1)) = .ok c → c ∈ done.1.entered

/-- One more type that is passed over. -/
theorem TypesEntered.skip {done : UserSids × Option Fault} {rest : List U32} {e : Errno}
    (later : TypesEntered p fromcon user rest { s with usercon } done) (same : usercon.role = s.usercon.role)
    (failed : mlsSetupUserRange p fromcon user (userContext user s.usercon.role (j + 1)) = .error e) :
    TypesEntered p fromcon user (j :: rest) s done := by
  constructor
  · exact later.prepared
  · exact later.old
  · intro c member
    rcases later.new c member with before | ⟨k, inRest, setup⟩
    · exact .inl before
    · dsimp only at setup
      rw [same] at setup
      exact .inr ⟨k, List.mem_cons_of_mem _ inRest, setup⟩
  · intro ended k member c setup
    rcases List.mem_cons.mp member with rfl | inRest
    · rw [failed] at setup
      cases setup
    · refine later.all ended k inRest c ?_
      dsimp only
      rw [same]
      exact setup

/-- One more type whose context is entered. -/
theorem TypesEntered.enter {done : UserSids × Option Fault} {rest mysids : List U32}
    (later : TypesEntered p fromcon user rest { usercon, mysids, entered := s.entered ++ [usercon] } done)
    (same : usercon.role = s.usercon.role)
    (setup : mlsSetupUserRange p fromcon user (userContext user s.usercon.role (j + 1)) = .ok usercon) :
    TypesEntered p fromcon user (j :: rest) s done := by
  constructor
  · exact later.prepared
  · exact fun c member => later.old c (List.mem_append_left _ member)
  · intro c member
    rcases later.new c member with before | ⟨k, inRest, other⟩
    · rcases List.mem_append.mp before with older | here
      · exact .inl older
      · rw [List.mem_singleton.mp here]
        exact .inr ⟨j, List.mem_cons_self, setup⟩
    · dsimp only at other
      rw [same] at other
      exact .inr ⟨k, List.mem_cons_of_mem _ inRest, other⟩
  · intro ended k member c other
    rcases List.mem_cons.mp member with rfl | inRest
    · rw [setup] at other
      cases other
      exact later.old _ (List.mem_append_right _ List.mem_cons_self)
    · refine later.all ended k inRest c ?_
      dsimp only
      rw [same]
      exact other

theorem userTypesLoop_entered (types : List U32) (prepared : Prepared p user s.usercon) :
    TypesEntered p fromcon user types s (userTypesLoop p fromcon user answer types s) := by
  induction types generalizing s with
  | nil =>
    exact ⟨prepared, fun _ member => member, fun _ member => .inl member, fun _ _ absurdity => nomatch absurdity⟩
  | cons j rest ih =>
    have same := @setup_prepared p fromcon s.usercon user prepared (j + 1)
    have next : Prepared p user { s.usercon with type := j + 1 } :=
      ⟨prepared.user, prepared.str, prepared.range⟩
    unfold userTypesLoop
    dsimp only
    split
    · rename_i failed
      rw [same] at failed
      exact (ih next).skip rfl failed
    · rename_i usercon setup
      have after := next.setup setup
      have sameRole : usercon.role = s.usercon.role := (setup_keeps setup).2.1
      rw [same] at setup
      split
      · have stopped : TypesEntered p fromcon user [] { s with usercon, entered := s.entered ++ [usercon] }
            ({ s with usercon, entered := s.entered ++ [usercon] }, none) :=
          ⟨after, fun _ member => member, fun _ member => .inl member, fun _ _ absurdity => nomatch absurdity⟩
        have entered := stopped.enter sameRole setup
        refine ⟨entered.prepared, entered.old, fun c member => ?_, fun ended => nomatch ended⟩
        rcases entered.new c member with before | ⟨k, here, other⟩
        · exact .inl before
        · rw [List.mem_singleton.mp here] at other
          exact .inr ⟨j, List.mem_cons_self, other⟩
      · exact (ih after).enter sameRole setup

theorem userTypesLoop_ends {sid : U32} (types : List U32) (s : UserSids) :
    (userTypesLoop p fromcon user (fun _ => .ok sid) types s).2 = none := by
  induction types generalizing s with
  | nil => rfl
  | cons j rest ih =>
    unfold userTypesLoop
    dsimp only
    split
    · exact ih _
    · exact ih _

/-- The loop over the roles comes to a role: its slot and those before it are filled. -/
def RoleReached (p : Policydb) (roles : List U32) (i : U32) (role : RoleDatum) : Prop :=
  ∃ before after, roles = before ++ i :: after ∧
    (∀ k ∈ before, (p.roleValToStruct[k.toNat]?.join).isSome = true) ∧
    p.roleValToStruct[i.toNat]?.join = some role

theorem RoleReached.first {roles : List U32} {role : RoleDatum}
    (slot : p.roleValToStruct[i.toNat]?.join = some role) : RoleReached p (i :: roles) i role :=
  ⟨[], roles, rfl, List.forall_mem_nil _, slot⟩

theorem RoleReached.later {roles : List U32} {role first : RoleDatum}
    (slot : p.roleValToStruct[j.toNat]?.join = some first) (reached : RoleReached p roles i role) :
    RoleReached p (j :: roles) i role := by
  obtain ⟨before, after, rfl, filled, here⟩ := reached
  refine ⟨j :: before, after, rfl, List.forall_mem_cons.mpr ⟨?_, filled⟩, here⟩
  rw [slot]
  rfl

theorem RoleReached.cases {roles : List U32} {role : RoleDatum} (reached : RoleReached p (j :: roles) i role) :
    (i = j ∧ p.roleValToStruct[j.toNat]?.join = some role) ∨
    ((p.roleValToStruct[j.toNat]?.join).isSome = true ∧ RoleReached p roles i role) := by
  obtain ⟨before, after, split, filled, here⟩ := reached
  cases before with
  | nil =>
    cases split
    exact .inl ⟨rfl, here⟩
  | cons k before =>
    cases split
    obtain ⟨first, rest⟩ := List.forall_mem_cons.mp filled
    exact .inr ⟨first, before, after, rfl, rest, here⟩

/-- What the loop over the roles enters. -/
theorem userRolesLoop_entered (roles : List U32) (prepared : Prepared p user s.usercon) :
    ∀ c ∈ (userRolesLoop p fromcon user answer roles s).1.entered, c ∈ s.entered ∨
      ∃ i role, RoleReached p roles i role ∧ ∃ j ∈ ebitmapPositiveBits role.types,
        mlsSetupUserRange p fromcon user (userContext user (i + 1) (j + 1)) = .ok c := by
  induction roles generalizing s with
  | nil => exact fun c member => .inl member
  | cons i rest ih =>
    intro c member
    unfold userRolesLoop at member
    split at member
    · exact .inl member
    rename_i role slot
    have next : Prepared p user { s.usercon with role := i + 1 } :=
      ⟨prepared.user, prepared.str, prepared.range⟩
    have types := @userTypesLoop_entered p fromcon user answer
      { s with usercon := { s.usercon with role := i + 1 } } (ebitmapPositiveBits role.types) next
    have here (done : UserSids) (entered : ∀ c ∈ done.entered, c ∈ s.entered ∨
        ∃ j ∈ ebitmapPositiveBits role.types,
          mlsSetupUserRange p fromcon user (userContext user (i + 1) (j + 1)) = .ok c)
        (inside : c ∈ done.entered) : c ∈ s.entered ∨ ∃ k role, RoleReached p (i :: rest) k role ∧
          ∃ j ∈ ebitmapPositiveBits role.types,
            mlsSetupUserRange p fromcon user (userContext user (k + 1) (j + 1)) = .ok c := by
      rcases entered c inside with old | new
      · exact .inl old
      · exact .inr ⟨i, role, .first slot, new⟩
    split at member
    · rename_i done ended
      rw [ended] at types
      rcases ih types.prepared c member with inside | ⟨k, other, reached, new⟩
      · exact here done types.new inside
      · exact .inr ⟨k, other, reached.later slot, new⟩
    · rename_i done fault ended
      rw [ended] at types
      exact here done types.new member

/-- All of it is entered where no call fails. -/
theorem userRolesLoop_all {sid : U32} (roles : List U32) (prepared : Prepared p user s.usercon) :
    (∀ c ∈ s.entered, c ∈ (userRolesLoop p fromcon user (fun _ => .ok sid) roles s).1.entered) ∧
    ∀ i role, RoleReached p roles i role → ∀ j ∈ ebitmapPositiveBits role.types, ∀ c,
      mlsSetupUserRange p fromcon user (userContext user (i + 1) (j + 1)) = .ok c →
      c ∈ (userRolesLoop p fromcon user (fun _ => .ok sid) roles s).1.entered := by
  induction roles generalizing s with
  | nil =>
    refine ⟨fun c member => member, ?_⟩
    rintro i role ⟨before, after, split, -⟩
    exact absurd split.symm (List.append_ne_nil_of_right_ne_nil _ (List.cons_ne_nil _ _))
  | cons k rest ih =>
    have next : Prepared p user { s.usercon with role := k + 1 } :=
      ⟨prepared.user, prepared.str, prepared.range⟩
    unfold userRolesLoop
    split
    · rename_i hole
      refine ⟨fun c member => member, fun i role reached => ?_⟩
      rcases reached.cases with ⟨-, slot⟩ | ⟨filled, -⟩
      · rw [hole] at slot
        cases slot
      · rw [hole] at filled
        cases filled
    · rename_i first slot
      have types := @userTypesLoop_entered p fromcon user (fun _ => .ok sid)
        { s with usercon := { s.usercon with role := k + 1 } } (ebitmapPositiveBits first.types) next
      have ends := @userTypesLoop_ends p fromcon user sid (ebitmapPositiveBits first.types)
        { s with usercon := { s.usercon with role := k + 1 } }
      split
      · rename_i done ended
        rw [ended] at types
        obtain ⟨old, new⟩ := ih types.prepared
        refine ⟨fun c member => old c (types.old c member), fun i role reached j bit c setup => ?_⟩
        rcases reached.cases with ⟨rfl, same⟩ | ⟨-, later⟩
        · rw [slot] at same
          cases same
          exact old c (types.all rfl j bit c setup)
        · exact new i role later j bit c setup
      · rename_i done fault ended
        rw [ended] at ends
        cases ends

end Loops

section Reading

variable {p : Policydb} {bytes rest : List U8}

theorem mlsReadRangeHelper_built {r : MlsRange} (read : mlsReadRangeHelper bytes = .ok (r, rest)) :
    RangeBuilt r := by
  simp only [mlsReadRangeHelper, ByteReader.bind_ok] at read
  obtain ⟨_, _, -, _, _, -, _, _, -, low, _, readLow, read⟩ := read
  split at read
  · simp only [ByteReader.bind_ok, ByteReader.pure_ok] at read
    obtain ⟨high, _, readHigh, rfl, -⟩ := read
    exact ⟨ebitmapRead_built readLow, ebitmapRead_built readHigh⟩
  · obtain ⟨rfl, -⟩ := ByteReader.pure_ok.mp read
    exact ⟨ebitmapRead_built readLow, ebitmapRead_built readLow⟩

theorem userReadDatum_built {vers : U32} {name : Name} {user : UserDatum}
    (read : userReadDatum vers bytes = .ok ((name, user), rest)) : UserBuilt user := by
  simp only [userReadDatum, ByteReader.bind_ok, ByteReader.pure_ok] at read
  obtain ⟨_, _, -, _, _, -, _, _, -, _, _, -, roles, _, readRoles, ⟨range, level⟩, _, readMls, made, -⟩ :=
    read
  cases made
  unfold userReadMls at readMls
  split at readMls
  · simp only [ByteReader.bind_ok, ByteReader.pure_ok, mlsReadLevel] at readMls
    obtain ⟨_, _, readRange, _, _, ⟨_, _, -, cat, _, readCat, rfl, -⟩, made, -⟩ := readMls
    cases made
    exact ⟨ebitmapRead_built readRoles, mlsReadRangeHelper_built readRange, ebitmapRead_built readCat⟩
  · obtain ⟨made, -⟩ := ByteReader.pure_ok.mp readMls
    cases made
    exact ⟨ebitmapRead_built readRoles, ⟨init_built, init_built⟩, init_built⟩

theorem users_built (read : policydbRead bytes = .ok (p, rest)) :
    ∀ e ∈ p.pUsers.table.entries, UserBuilt e.2 := by
  obtain ⟨stages, -⟩ := PolicydbStages.policydbRead_stages read
  obtain ⟨_, _, _, _, _, tables, -, -, -, same⟩ := stages.tables
  rw [same.users]
  obtain ⟨s, rfl⟩ := PolicydbShape.symtabsRead_steps tables
  exact @PolicydbShape.symtabRead_entries _ _ UserBuilt _ _ _ (fun _ _ _ _ item => userReadDatum_built item)
    s.users

/-- What an accepted policy has for the loops. -/
structure Loaded (p : Policydb) : Prop where
  users : ∀ e ∈ p.pUsers.table.entries, UserBuilt e.2
  slots : ∀ e ∈ p.pUsers.table.entries, valueIsvalid p.pUsers.nprim e.2.value = true ∧
    ∃ owner, atValue p.userValToStruct e.2.value = .ok (some owner)
  roles : ∀ (i : U32) role, p.roleValToStruct[i.toNat]?.join = some role →
    i.toNat < p.pRoles.nprim.toNat ∧ Built role.types

theorem loaded_of_read (read : policydbRead bytes = .ok (p, rest)) : Loaded p := by
  obtain ⟨stages, -⟩ := PolicydbStages.policydbRead_stages read
  have arrays := PolicydbArrays.stages_arrays stages
  constructor
  · exact users_built read
  · rintro ⟨key, user⟩ member
    obtain ⟨nonzero, le, -⟩ := arrays.users.filled key user member rfl
    obtain ⟨-, filled⟩ := LoadedSlots.filed_slot arrays.users member rfl
    obtain ⟨owner, -, slot⟩ := NamedContexts.atValue_of_held filled
    refine ⟨?_, owner, slot⟩
    rw [valueIsvalid, Bool.and_eq_true, decide_eq_true_eq, decide_eq_true_eq]
    exact ⟨nonzero, le⟩
  · intro i role slot
    have here : p.roleValToStruct[i.toNat]? = some (some role) := by
      cases found : p.roleValToStruct[i.toNat]? with
      | none =>
        rw [found] at slot
        cases slot
      | some entry =>
        rw [found] at slot
        cases entry with
        | none => cases slot
        | some r =>
          cases slot
          rfl
    have inside := (List.getElem?_eq_some_iff.mp here).1
    obtain ⟨key, datum, member, -, -, rfl⟩ := arrays.roles.entry here
    have length : p.roleValToStruct.length = p.pRoles.nprim.toNat := arrays.roles.data
    rw [length] at inside
    exact ⟨inside, ((BoundsCheck.stages_boundsTables stages).roles _ member).1⟩

end Reading

section Legal

variable {p : Policydb} {fromcon c : Context} {user owner : UserDatum} {role : RoleDatum} {i j : U32}
  {username : Name} {bytes rest : List U8}

/-- The policy knows the type, and the user in the slot has the role and is cleared for the range. -/
structure ContextFits (p : Policydb) (fromcon : Context) (user : UserDatum) (i j : U32) : Prop where
  type : j.toNat < p.pTypes.nprim.toNat
  role : i ≠ 0 → ∀ owner, atValue p.userValToStruct user.value = .ok (some owner) →
    ebitmapGetBit owner.roles i.toNat = true
  range : p.mlsEnabled = true → i ≠ 0 → ∀ owner, atValue p.userValToStruct user.value = .ok (some owner) →
    RangeFits fromcon user owner.range
  levels : p.mlsEnabled = true → LevelsValid p fromcon user

/-- The levels of the user fit the starting context, and so do the roles and types that are reached. -/
structure UserFits (p : Policydb) (fromcon : Context) (user : UserDatum) : Prop where
  range : p.mlsEnabled = true → Comparable fromcon user →
    RangeFits fromcon user user.range ∧ LevelsOrdered fromcon user
  contexts : (p.mlsEnabled = true → Comparable fromcon user) →
    ∀ i role, RoleReached p (ebitmapPositiveBits user.roles) i role →
      ∀ j ∈ ebitmapPositiveBits role.types, ContextFits p fromcon user i j

/-- Every range that is set up and every context that is entered is legal. -/
structure ReachableLegal (p : Policydb) (fromcon : Context) (username : Name) (user : UserDatum) : Prop where
  range : p.mlsEnabled = true → ∀ usercon c, mlsSetupUserRange p fromcon user usercon = .ok c →
    RangeLegal fromcon user c.range
  contexts : ∀ answer, ∀ c ∈ (securityGetUserSids p (some fromcon) username answer).1.entered,
    policydbContextIsvalid p c = .ok true

/-- The starting context: valid, with bitmaps as they are built. -/
structure StartValid (p : Policydb) (fromcon : Context) : Prop where
  valid : policydbContextIsvalid p fromcon = .ok true
  built : RangeBuilt fromcon.range

theorem StartValid.range (start : StartValid p fromcon) (enabled : p.mlsEnabled = true) :
    (mlsLevelIsvalid p fromcon.range.low = .ok true ∧ mlsLevelIsvalid p fromcon.range.high = .ok true) ∧
      mlsLevelDom fromcon.range.high fromcon.range.low = true := by
  have mls := (ContextRoundTrip.validFields start.valid).mls
  unfold mlsContextIsvalid at mls
  rw [if_neg (not_not.mpr enabled), exceptBind_ok] at mls
  obtain ⟨range, read, answer⟩ := mls
  cases range with
  | false => cases answer
  | true => exact rangeIsvalid_iff.mp read

theorem valid_succ {nprim k : U32} (small : k.toNat < 2 ^ 32 - 1) :
    valueIsvalid nprim (k + 1) = true ↔ k.toNat < nprim.toNat := by
  have succ := toNat_succ small
  have bound := nprim.isLt
  unfold valueIsvalid
  rw [Bool.and_eq_true, decide_eq_true_eq, decide_eq_true_eq, BitVec.le_def, succ]
  constructor
  · rintro ⟨-, le⟩
    omega
  · intro less
    refine ⟨fun zero => ?_, by omega⟩
    rw [zero] at succ
    cases succ

theorem slot_of_join {α : Type} {array : List (Option α)} {k : U32} {a : α}
    (slot : array[k.toNat]?.join = some a) : atValue array (k + 1) = .ok (some a) := by
  unfold atValue
  rw [BitVec.add_sub_cancel]
  cases found : array[k.toNat]? with
  | none =>
    rw [found] at slot
    cases slot
  | some entry =>
    rw [found] at slot
    exact congrArg Except.ok slot

/-- What the levels of an entered context are checked for. -/
theorem range_legal_iff (start : StartValid p fromcon) (built : UserBuilt user) {usercon : Context}
    (setup : mlsSetupUserRange p fromcon user usercon = .ok c) (enabled : p.mlsEnabled = true) :
    (mlsRangeIsvalid p c.range = .ok true ↔ LevelsValid p fromcon user ∧ LevelsOrdered fromcon user) ∧
    (∀ r, mlsRangeContains r c.range = true ↔ RangeFits fromcon user r) ∧
    (RangeLegal fromcon user c.range ↔ RangeFits fromcon user user.range ∧ LevelsOrdered fromcon user) := by
  obtain ⟨⟨startLow, startHigh⟩, startOrdered⟩ := start.range enabled
  rcases setup_ok setup with ⟨disabled, -⟩ | ⟨-, low, high, sen, clr, rfl⟩
  · rw [enabled] at disabled
    cases disabled
  refine ⟨?_, fun r => rangeFits_iff sen clr, rangeLegal_iff start.built built startOrdered sen clr⟩
  rw [rangeIsvalid_iff, ordered_iff start.built built startOrdered sen clr,
    levels_valid_iff startLow startHigh sen clr]

/-- What an entered context is checked for. -/
theorem context_legal_iff (loaded : Loaded p) (start : StartValid p fromcon) {key : Name}
    (member : (key, user) ∈ p.pUsers.table.entries) (slot : p.roleValToStruct[i.toNat]?.join = some role)
    (bit : j ∈ ebitmapPositiveBits role.types)
    (setup : mlsSetupUserRange p fromcon user (userContext user (i + 1) (j + 1)) = .ok c) :
    policydbContextIsvalid p c = .ok true ↔ ContextFits p fromcon user i j ∧
      (p.mlsEnabled = true → LevelsOrdered fromcon user) := by
  obtain ⟨userValid, owner, userSlot⟩ := loaded.slots _ member
  obtain ⟨inside, builtTypes⟩ := loaded.roles i role slot
  obtain ⟨sameUser, sameRole, sameType, -, -⟩ := setup_keeps setup
  have inTypes := (mem_positiveBits builtTypes j).mp bit
  have smallI : i.toNat < 2 ^ 32 - 1 := by
    have := p.pRoles.nprim.isLt
    omega
  have smallJ : j.toNat < 2 ^ 32 - 1 := by
    have := builtTypes.upper inTypes
    have := role.types.highbit.isLt
    omega
  change c.user = user.value at sameUser
  change c.role = i + 1 at sameRole
  change c.type = j + 1 at sameType
  have object : c.role ≠ objectRVal ↔ i ≠ 0 := by
    rw [sameRole]
    unfold objectRVal
    bv_omega
  have roleSlot : atValue p.roleValToStruct c.role = .ok (some role) := by
    rw [sameRole]
    exact slot_of_join slot
  have ownerSlot : atValue p.userValToStruct c.user = .ok (some owner) := by
    rw [sameUser]
    exact userSlot
  have typed : ebitmapGetBit role.types (c.type - 1).toNat = true := by
    rw [sameType, BitVec.add_sub_cancel]
    exact (getBit_iff builtTypes).mpr inTypes
  have roleValid : valueIsvalid p.pRoles.nprim c.role = true := by
    rw [sameRole]
    exact (valid_succ smallI).mpr inside
  rw [← sameUser] at userValid
  have only {owner' : UserDatum} (other : atValue p.userValToStruct user.value = .ok (some owner')) :
      owner' = owner := by
    rw [userSlot] at other
    cases other
    rfl
  rw [contextIsvalid_iff roleSlot ownerSlot roleValid userValid typed,
    mlsContextIsvalid_iff ownerSlot userValid, object, sameType, valid_succ smallJ, sameRole,
    BitVec.add_sub_cancel]
  constructor
  · rintro ⟨type, authorized, mls⟩
    refine ⟨⟨type, fun other o taken => ?_, fun enabled other o taken => ?_, fun enabled => ?_⟩,
      fun enabled => ?_⟩
    · rw [only taken]
      exact authorized other
    · rw [only taken, ← (range_legal_iff start (loaded.users _ member) setup enabled).2.1]
      exact (mls enabled).2 other
    · exact ((range_legal_iff start (loaded.users _ member) setup enabled).1.mp (mls enabled).1).1
    · exact ((range_legal_iff start (loaded.users _ member) setup enabled).1.mp (mls enabled).1).2
  · rintro ⟨fits, ordered⟩
    refine ⟨fits.type, fun other => fits.role other owner userSlot, fun enabled => ⟨?_, fun other => ?_⟩⟩
    · exact (range_legal_iff start (loaded.users _ member) setup enabled).1.mpr
        ⟨fits.levels enabled, ordered enabled⟩
    · exact ((range_legal_iff start (loaded.users _ member) setup enabled).2.1 _).mpr
        (fits.range enabled other owner userSlot)

/-- The contexts that a user can reach are legal just where the levels, the roles and the types that are
read for the user and its roles fit. -/
theorem reachable_legal_iff (read : policydbRead bytes = .ok (p, rest)) (start : StartValid p fromcon)
    (found : symtabSearch p.pUsers username = some user) :
    ReachableLegal p fromcon username user ↔ UserFits p fromcon user := by
  have loaded := loaded_of_read read
  obtain ⟨key, member⟩ := PolicydbStages.mem_of_hashtabSearch found
  have built := loaded.users _ member
  have prepared : Prepared p user { contextInit with user := user.value } := ⟨rfl, rfl, fun _ => rfl⟩
  have loops (answer : Nat → Except Errno U32) : securityGetUserSids p (some fromcon) username answer =
      userRolesLoop p fromcon user answer (ebitmapPositiveBits user.roles)
        { usercon := { contextInit with user := user.value }, mysids := [], entered := [] } := by
    unfold securityGetUserSids
    rw [found]
  constructor
  · intro legal
    constructor
    · intro enabled comparable
      obtain ⟨c, setup⟩ := @setup_of_comparable p fromcon contextInit user fun _ => comparable
      exact (range_legal_iff start built setup enabled).2.2.mp (legal.range enabled _ c setup)
    · intro comparable i role reached j bit
      obtain ⟨c, setup⟩ := @setup_of_comparable p fromcon (userContext user (i + 1) (j + 1)) user comparable
      have entered := (@userRolesLoop_all p fromcon user
        { usercon := { contextInit with user := user.value }, mysids := [], entered := [] } 0 _
        prepared).2 i role reached j bit c setup
      rw [← loops] at entered
      have valid := legal.contexts _ c entered
      obtain ⟨_, _, -, -, slot⟩ := reached
      exact ((context_legal_iff loaded start member slot bit setup).mp valid).1
  · intro fits
    constructor
    · intro enabled usercon c setup
      exact (range_legal_iff start built setup enabled).2.2.mpr
        (fits.range enabled (comparable_of_setup setup enabled))
    · intro answer c entered
      rw [loops] at entered
      rcases userRolesLoop_entered _ prepared c entered with before | ⟨i, role, reached, j, bit, setup⟩
      · cases before
      · have comparable := comparable_of_setup setup
        have context := fits.contexts comparable i role reached j bit
        obtain ⟨_, _, -, -, slot⟩ := reached
        exact (context_legal_iff loaded start member slot bit setup).mpr
          ⟨context, fun enabled => (fits.range enabled (comparable enabled)).2⟩

end Legal

section Concrete

/-- Two sensitivities, and a user whose range is the first one and whose default level is the second. -/
def defaultImage : PolicyImage :=
  { smallImage with
    header := newHeader 1
    roles := symbols 2 [roleBytes 1 0 objectR emptyBitmap,
      roleBytes 2 0 (cstr ['r']) (bitmapBytes 64 [(0, 1)])]
    users := symbols 1 [word 1 ++ word 1 ++ word 0 ++
      cstr ['u'] ++ bitmapBytes 64 [(0, 2)] ++ rangeBytes 1 ++
      word 2 ++ emptyBitmap]
    levels := symbols 2 [sensBytes 1 (cstr ['s']) emptyBitmap,
      sensBytes 2 (cstr ['t']) emptyBitmap] }

/-- A starting context from the first sensitivity to the second. -/
def wideContext : Context :=
  { user := 1, role := objectRVal, type := 1, range := ⟨⟨1, ebitmapInit⟩, ⟨2, ebitmapInit⟩⟩, str := none }

/-- The contexts of the user that are entered from there, where no call fails. -/
def wideEntered (p : Policydb) : List Context :=
  (securityGetUserSids p (some wideContext) (cstr ['u']) fun _ => .ok 1).1.entered

theorem defaultImage_accepted : ∃ p rest user, policydbRead defaultImage.bytes = .ok (p, rest) ∧
    StartValid p wideContext ∧ symtabSearch p.pUsers (cstr ['u']) = some user ∧
    ∃ c ∈ wideEntered p, policydbContextIsvalid p c = .ok false := by
  have accepted : defaultImage.accepts (fun p =>
      (policydbContextIsvalid p wideContext).toOption == some true &&
        ((symtabSearch p.pUsers (cstr ['u'])).isSome &&
        (wideEntered p).any fun c => (policydbContextIsvalid p c).toOption == some false)) = true := by
    decide +kernel
  obtain ⟨p, rest, read, tests⟩ := PolicyImage.accepts_iff.mp accepted
  rw [Bool.and_eq_true, Bool.and_eq_true] at tests
  obtain ⟨valid, known, refused⟩ := tests
  obtain ⟨user, found⟩ := Option.isSome_iff_exists.mp known
  obtain ⟨c, entered, test⟩ := List.any_eq_true.mp refused
  have answers {context : Context} {b : Bool}
      (test : ((policydbContextIsvalid p context).toOption == some b) = true) :
      policydbContextIsvalid p context = .ok b := by
    cases checked : policydbContextIsvalid p context with
    | error f => simp [checked, Except.toOption] at test
    | ok b' => simpa [checked, Except.toOption] using test
  exact ⟨p, rest, user, read, ⟨answers valid, init_built, init_built⟩, found, c, entered, answers test⟩

theorem reachable_legal_iff_wide : ∃ p rest user, policydbRead defaultImage.bytes = .ok (p, rest) ∧
    (ReachableLegal p wideContext (cstr ['u']) user ↔ UserFits p wideContext user) := by
  obtain ⟨p, rest, user, read, start, found, -⟩ := defaultImage_accepted
  exact ⟨p, rest, user, read, reachable_legal_iff read start found⟩

/-- A default level above the clearance of the user gives contexts that are entered and not valid. -/
theorem default_above_clearance : ∃ p rest user, policydbRead defaultImage.bytes = .ok (p, rest) ∧
    StartValid p wideContext ∧ symtabSearch p.pUsers (cstr ['u']) = some user ∧
    (∃ c ∈ wideEntered p, policydbContextIsvalid p c = .ok false) ∧
    ¬ ReachableLegal p wideContext (cstr ['u']) user := by
  obtain ⟨p, rest, user, read, start, found, c, entered, refused⟩ := defaultImage_accepted
  refine ⟨p, rest, user, read, start, found, ⟨c, entered, refused⟩, fun legal => ?_⟩
  have valid := legal.contexts _ c entered
  rw [refused] at valid
  cases valid

end Concrete

end Ksrc.Guarantees.UserContexts

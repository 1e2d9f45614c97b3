import Ksrc.Guarantees.StringOrder
import Ksrc.Source.LuaArguments

/-!
# Capability names and ranges of random numbers

Source: `lua/auxlib.c` (`tocflags`, `arg2cap`) and `lua/lua_kernel.c` (`kernel_random`). A parser
of flags that finds no name answers 0, and 0 is the number of a capability. Bounds of a range are
checked as signed integers of 32 bits and passed on without their sign.
-/
namespace Ksrc.Guarantees.LuaArguments

open Library Source StringOrder

section Names

variable {s t : Name} {opt : CflagOpt} {opts : List CflagOpt}

/-- The strings differ at most in the case of their letters. -/
def SameLetters (s t : Name) : Prop := s.map toLower = t.map toLower

/-- A string names a capability, by the table. -/
def NamesCap (s : Name) (cap : Int) : Prop :=
  ∃ opt ∈ caps, SameLetters s opt.name ∧ cap = opt.flag.toInt

theorem toLower_zero (c : U8) : toLower c = 0 ↔ c = 0 := by
  have all : ∀ c : U8, toLower c = 0 ↔ c = 0 := by decide
  exact all c

theorem map_toLower_zero : (0 : U8) ∈ s.map toLower ↔ (0 : U8) ∈ s := by
  rw [List.mem_map]
  constructor
  · rintro ⟨c, member, zero⟩
    rwa [← (toLower_zero c).mp zero]
  · intro member
    exact ⟨0, member, rfl⟩

/-- `strcasecmp` of strings without zeros is 0 where they differ at most in case. -/
theorem strcasecmp_zero (noZero : (0 : U8) ∉ s) (noZero' : (0 : U8) ∉ t) :
    strcasecmp s t = 0 ↔ SameLetters s t := by
  have positive : ∀ c : U8, c ≠ 0 → (toLower c).toNat ≠ 0 := by
    intro c some zero
    exact some ((toLower_zero c).mp (BitVec.eq_of_toNat_eq zero))
  unfold SameLetters
  induction s generalizing t with
  | nil =>
    cases t with
    | nil => simp [strcasecmp]
    | cons b bs =>
      have here := positive b (List.ne_of_not_mem_cons noZero').symm
      simp only [strcasecmp, List.map_nil, List.map_cons, reduceCtorEq, iff_false]
      omega
  | cons a as ih =>
    cases t with
    | nil =>
      have here := positive a (List.ne_of_not_mem_cons noZero).symm
      simp only [strcasecmp, List.map_nil, List.map_cons, reduceCtorEq, iff_false]
      omega
    | cons b bs =>
      have later := ih (List.not_mem_of_not_mem_cons noZero) (List.not_mem_of_not_mem_cons noZero')
      simp only [strcasecmp, List.map_cons, List.cons.injEq]
      split
      · rename_i same
        exact later.trans (and_iff_right same).symm
      · rename_i differs
        have apart : (toLower a).toNat ≠ (toLower b).toNat := fun same =>
          differs (BitVec.eq_of_toNat_eq same)
        simp only [differs, false_and, iff_false]
        omega

/-- The loop over the options adds the flag of the first name that matches. -/
theorem orNamed_eq (s : Name) (flags : U32) (opts : List CflagOpt) : orNamed s flags opts =
    match opts.find? fun opt => strcasecmp s opt.name == 0 with
    | some opt => flags ||| opt.flag
    | none => flags := by
  induction opts with
  | nil => rfl
  | cons opt rest ih =>
    unfold orNamed
    rw [List.find?_cons]
    by_cases hit : strcasecmp s opt.name = 0
    · simp [hit]
    · have miss : (strcasecmp s opt.name == 0) = false := beq_false_of_ne hit
      rw [if_pos hit, ih, miss]

theorem caps_noZero (listed : opt ∈ caps) : (0 : U8) ∉ opt.name := by
  have all : ∀ opt ∈ caps, (0 : U8) ∉ opt.name := by decide
  exact all opt listed

/-- No two names of the table are the same in another case. -/
theorem caps_apart {opt' : CflagOpt} (listed : opt ∈ caps) (listed' : opt' ∈ caps)
    (same : SameLetters opt.name opt'.name) : opt = opt' := by
  have once : (caps.map fun opt => opt.name.map toLower).Nodup := by decide
  exact List.inj_on_of_nodup_map once listed listed' same

/-- The flag of each name is a capability, and none is the default of the parser. -/
theorem caps_valid (listed : opt ∈ caps) :
    capValid opt.flag.toInt = true ∧ opt.flag.toInt ≠ -1 := by
  have all : ∀ opt ∈ caps, capValid opt.flag.toInt = true ∧ opt.flag.toInt ≠ -1 := by
    decide
  exact all opt listed

/-- A name of the table is found by its own option. -/
theorem caps_find (listed : opt ∈ caps) (same : SameLetters s opt.name) :
    caps.find? (fun opt => strcasecmp (cString s) opt.name == 0) = some opt := by
  have noZero : (0 : U8) ∉ s := by
    rw [← map_toLower_zero, same, map_toLower_zero]
    exact caps_noZero listed
  have hit : strcasecmp (cString s) opt.name = 0 := by
    rw [cString_unterminated noZero, strcasecmp_zero noZero (caps_noZero listed)]
    exact same
  cases found : caps.find? fun opt => strcasecmp (cString s) opt.name == 0 with
  | none =>
    have never := List.find?_eq_none.mp found opt listed
    rw [hit] at never
    exact absurd rfl never
  | some opt' =>
    have listed' := List.mem_of_find?_eq_some found
    have hit' := List.find?_some found
    rw [beq_iff_eq, cString_unterminated noZero, strcasecmp_zero noZero (caps_noZero listed')] at hit'
    rw [caps_apart listed' listed (hit'.symm.trans same)]

end Names

section Argument

variable {L : LuaArgs} {idx : Nat} {s : Name} {n : Option Int} {opt : CflagOpt} {cap : Int}

/-- One argument is one turn of the parser. -/
theorem tocflags_one (L : LuaArgs) (idx : Nat) (opts : List CflagOpt) (d : U32) :
    tocflags L idx (some idx) opts d = orArgument L opts d 0 idx := by
  unfold tocflags
  rw [Option.getD_some, Nat.add_sub_cancel_left]
  rfl

/-- A string always yields a capability: that of the first name its characters up to a zero are,
and 0 where they are none. -/
theorem arg2cap_string (isString : L.value idx = some (.string s n)) :
    arg2cap L idx =
      match caps.find? fun opt => strcasecmp (cString s) opt.name == 0 with
      | some opt => .ok opt.flag.toInt
      | none => .ok 0 := by
  unfold arg2cap
  rw [isString]
  simp only [tocflags_one, orArgument, isString, orNamed_eq]
  cases found : caps.find? fun opt => strcasecmp (cString s) opt.name == 0 with
  | none => rfl
  | some opt =>
    obtain ⟨valid, noDefault⟩ := caps_valid (List.mem_of_find?_eq_some found)
    simp only [BitVec.ofNat_eq_ofNat, BitVec.zero_or, noDefault, valid, if_true, if_false]

theorem arg2cap_named (isString : L.value idx = some (.string s n)) (listed : opt ∈ caps)
    (same : SameLetters s opt.name) : arg2cap L idx = .ok opt.flag.toInt := by
  rw [arg2cap_string isString, caps_find listed same]

/-- The parser never refuses a string. -/
theorem arg2cap_never_refuses (isString : L.value idx = some (.string s n)) :
    ∃ cap, arg2cap L idx = .ok cap := by
  rw [arg2cap_string isString]
  split
  · exact ⟨_, rfl⟩
  · exact ⟨_, rfl⟩

theorem namesCap_of_named (listed : opt ∈ caps) (same : SameLetters s opt.name) :
    NamesCap s cap ↔ cap = opt.flag.toInt := by
  constructor
  · rintro ⟨opt', listed', same', rfl⟩
    rw [caps_apart listed' listed (same'.symm.trans same)]
  · rintro rfl
    exact ⟨opt, listed, same, rfl⟩

theorem value_between (above below : List LuaTValue) (v : LuaTValue) (array : Int → List LuaTValue) :
    LuaArgs.value { stack := above ++ v :: below, array } (below.length + 1) = some v := by
  have depth : OperandStack.depth (above ++ v :: below) ((below.length + 1 : Nat) : Int) =
      above.length + 1 := by
    unfold OperandStack.depth
    rw [if_pos (by omega), List.length_append, List.length_cons]
    omega
  unfold LuaArgs.value OperandStack.valueAt
  rw [depth]
  simp

end Argument

/-- What is asked of `arg2cap` for a string at an index: its capability if and only if it is the
name of one, and the error for every other string. -/
structure NeverGuesses (L : LuaArgs) (idx : Nat) (s : Name) : Prop where
  yields : ∀ cap, arg2cap L idx = .ok cap ↔ NamesCap s cap
  refuses : (∀ cap, ¬ NamesCap s cap) → arg2cap L idx = .error (.argerror idx "invalid capability")

/-- A string argument is treated as it should be exactly where it is a name of the table. -/
theorem neverGuesses_iff (above below : List LuaTValue) (array : Int → List LuaTValue) (s : Name)
    (n : Option Int) :
    NeverGuesses { stack := above ++ .string s n :: below, array } (below.length + 1) s ↔
      ∃ opt ∈ caps, SameLetters s opt.name := by
  have isString := value_between above below (.string s n) array
  constructor
  · intro right
    by_contra unnamed
    have none : ∀ cap, ¬ NamesCap s cap := by
      rintro cap ⟨opt, listed, same, -⟩
      exact unnamed ⟨opt, listed, same⟩
    obtain ⟨cap, yielded⟩ := arg2cap_never_refuses isString
    rw [right.refuses none] at yielded
    cases yielded
  · rintro ⟨opt, listed, same⟩
    constructor
    · intro cap
      rw [arg2cap_named isString listed same, namesCap_of_named listed same, Except.ok.injEq]
      exact eq_comm
    · intro none
      exact absurd ⟨opt, listed, same, rfl⟩ (none opt.flag.toInt)

/-- A misspelt name yields `CAP_CHOWN`. -/
theorem misspelt_chown :
    ¬ NeverGuesses { stack := [.string (cstr "sys_amdin".toList) none], array := fun _ => [] } 1
      (cstr "sys_amdin".toList) := by
  intro right
  have unnamed : ∀ opt ∈ caps, ¬ (cstr "sys_amdin".toList).map toLower = opt.name.map toLower := by
    decide
  have yielded : arg2cap { stack := [.string (cstr "sys_amdin".toList) none], array := fun _ => [] } 1 =
      .ok 0 := by decide
  obtain ⟨opt, listed, same, -⟩ := (right.yields 0).mp yielded
  exact unnamed opt listed same

section Ranges

/-- What the documentation of the random number functions promises. -/
structure Documented (rng : RandomSource) : Prop where
  below : ∀ ceil : U32, 0 < ceil.toNat → (rng.below ceil).toNat < ceil.toNat
  inclusive : ∀ floor ceil : U32, floor.toNat ≤ ceil.toNat →
    floor.toNat ≤ (rng.inclusive floor ceil).toNat ∧ (rng.inclusive floor ceil).toNat ≤ ceil.toNat

/-- Whether a random number function may be called so. -/
def InDomain : RandomCall → Prop
  | .u32 => True
  | .below ceil => 0 < ceil.toNat
  | .inclusive floor ceil => floor.toNat ≤ ceil.toNat

/-- A program calls `kernel.random` with one integer. -/
def oneBound (u : BitVec 64) : LuaArgs :=
  { stack := [.number u.toInt], array := fun _ => [] }

/-- A program calls `kernel.random` with two integers. -/
def twoBounds (l u : BitVec 64) : LuaArgs :=
  { stack := [.number u.toInt, .number l.toInt], array := fun _ => [] }

/-- An answer is in the range a caller asks for. -/
def InRange (floor ceil : Int) (out : Option RandomCall × Except LuaArgError Int) : Prop :=
  ∀ r, out.2 = .ok r → floor ≤ r ∧ r ≤ ceil

/-- The call for an answer is in its domain. -/
def CalledInDomain (out : Option RandomCall × Except LuaArgError Int) : Prop :=
  ∀ call, out.1 = some call → InDomain call

theorem inRange_ok {floor ceil r : Int} {call : Option RandomCall} :
    InRange floor ceil (call, .ok r) ↔ floor ≤ r ∧ r ≤ ceil := by
  simp [InRange]

theorem inRange_error {floor ceil : Int} {call : Option RandomCall} {e : LuaArgError} :
    InRange floor ceil (call, .error e) := by
  simp [InRange]

theorem calledInDomain_some {call : RandomCall} {answer : Except LuaArgError Int} :
    CalledInDomain (some call, answer) ↔ InDomain call := by
  simp [CalledInDomain]

theorem calledInDomain_none {answer : Except LuaArgError Int} : CalledInDomain (none, answer) := by
  simp [CalledInDomain]

theorem kernelRandom_one (rng : RandomSource) (u : BitVec 64) :
    kernelRandom rng (oneBound u) =
      if 0 ≤ (luaInt u.toInt).toInt then
        (some (.below (luaInt u.toInt)), .ok (rng.below (luaInt u.toInt) + 1).toNat)
      else (none, .error (.argerror 1 "interval is empty")) := rfl

theorem kernelRandom_two (rng : RandomSource) (l u : BitVec 64) :
    kernelRandom rng (twoBounds l u) =
      if (luaInt l.toInt).toInt ≤ (luaInt u.toInt).toInt then
        (some (.inclusive (luaInt l.toInt) (luaInt u.toInt)),
          .ok (rng.inclusive (luaInt l.toInt) (luaInt u.toInt)).toNat)
      else (none, .error (.argerror 2 "interval is empty")) := rfl

/-- An integer that is cut to 32 bits, with and without its sign. -/
theorem luaInt_cut (n : Int) : ∃ k : Int, n = 4294967296 * k + (luaInt n).toNat ∧
    (luaInt n).toInt = if (luaInt n).toNat < 2147483648 then ((luaInt n).toNat : Int)
      else (luaInt n).toNat - 4294967296 := by
  refine ⟨n / 4294967296, ?_, ?_⟩
  · unfold luaInt
    rw [BitVec.toNat_ofInt]
    omega
  · rw [BitVec.toInt_eq_toNat_cond]
    split
    · rw [if_pos (by omega)]
    · rw [if_neg (by omega)]
      rfl

/-- With one bound the answer is right where the bound is refused, or is positive both before and
after it is cut. -/
theorem oneBound_iff {rng : RandomSource} (documented : Documented rng) (u : BitVec 64) :
    InRange 1 u.toInt (kernelRandom rng (oneBound u)) ∧
        CalledInDomain (kernelRandom rng (oneBound u)) ↔
      (luaInt u.toInt).toInt < 0 ∨ 0 < (luaInt u.toInt).toInt ∧ 0 < u.toInt := by
  have cut := luaInt_cut u.toInt
  rw [kernelRandom_one]
  generalize u.toInt = bound at *
  generalize luaInt bound = ceil at *
  obtain ⟨k, split, signed⟩ := cut
  have width := ceil.isLt
  by_cases accepted : 0 ≤ ceil.toInt
  · rw [if_pos accepted, inRange_ok, calledInDomain_some]
    unfold InDomain
    have small : ceil.toNat < 2147483648 := by
      by_contra large
      rw [if_neg large] at signed
      omega
    rw [if_pos small] at signed
    have below := documented.below ceil
    have next : 0 < ceil.toNat →
        (rng.below ceil + 1).toNat = (rng.below ceil).toNat + 1 := by
      intro positive
      have less := below positive
      rw [BitVec.toNat_add]
      simp only [BitVec.ofNat_eq_ofNat, BitVec.toNat_ofNat]
      omega
    constructor
    · rintro ⟨⟨least, most⟩, positive⟩
      rw [next positive] at least most
      omega
    · rintro (negative | ⟨positive, some⟩)
      · omega
      · have less := below (by omega)
        rw [next (by omega)]
        omega
  · rw [if_neg accepted]
    exact iff_of_true ⟨inRange_error, calledInDomain_none⟩ (.inl (by omega))

/-- With two bounds the answer is right where they are refused, or where the call has a range and
both bounds reach it. -/
theorem twoBounds_iff {rng : RandomSource} (documented : Documented rng) (l u : BitVec 64) :
    (l.toInt ≤ u.toInt → InRange l.toInt u.toInt (kernelRandom rng (twoBounds l u))) ∧
        CalledInDomain (kernelRandom rng (twoBounds l u)) ↔
      (luaInt u.toInt).toInt < (luaInt l.toInt).toInt ∨
        (0 ≤ (luaInt l.toInt).toInt ∨ (luaInt u.toInt).toInt < 0) ∧
          (l.toInt ≤ u.toInt → l.toInt < 2 ^ 32 ∧ 0 ≤ u.toInt) := by
  have cutLow := luaInt_cut l.toInt
  have cutHigh := luaInt_cut u.toInt
  rw [kernelRandom_two]
  generalize l.toInt = low at *
  generalize u.toInt = high at *
  generalize luaInt low = floor at *
  generalize luaInt high = ceil at *
  obtain ⟨k, splitLow, signedLow⟩ := cutLow
  obtain ⟨m, splitHigh, signedHigh⟩ := cutHigh
  have widthLow := floor.isLt
  have widthHigh := ceil.isLt
  by_cases accepted : floor.toInt ≤ ceil.toInt
  · rw [if_pos accepted, inRange_ok, calledInDomain_some]
    unfold InDomain
    have domain : floor.toNat ≤ ceil.toNat ↔ 0 ≤ floor.toInt ∨ ceil.toInt < 0 := by
      split_ifs at signedLow signedHigh <;> omega
    rw [← domain, and_comm, or_iff_right (by omega)]
    refine and_congr_right fun ordered => forall_congr' fun _ => ?_
    obtain ⟨least, most⟩ := documented.inclusive floor ceil ordered
    omega
  · rw [if_neg accepted]
    exact iff_of_true ⟨fun _ => inRange_error, calledInDomain_none⟩ (.inl (by omega))

/-- `kernel.random` keeps its range, and calls its random number functions in their domain, exactly
where these conditions on the bounds hold. -/
theorem random_ranges_iff (rng : RandomSource) (documented : Documented rng) :
    (∀ u : BitVec 64, InRange 1 u.toInt (kernelRandom rng (oneBound u)) ∧
        CalledInDomain (kernelRandom rng (oneBound u)) ↔
      (luaInt u.toInt).toInt < 0 ∨ 0 < (luaInt u.toInt).toInt ∧ 0 < u.toInt) ∧
    (∀ l u : BitVec 64,
      (l.toInt ≤ u.toInt → InRange l.toInt u.toInt (kernelRandom rng (twoBounds l u))) ∧
        CalledInDomain (kernelRandom rng (twoBounds l u)) ↔
      (luaInt u.toInt).toInt < (luaInt l.toInt).toInt ∨
        (0 ≤ (luaInt l.toInt).toInt ∨ (luaInt u.toInt).toInt < 0) ∧
          (l.toInt ≤ u.toInt → l.toInt < 2 ^ 32 ∧ 0 ≤ u.toInt)) :=
  ⟨oneBound_iff documented, twoBounds_iff documented⟩

/-- A source that always answers with the least number of a range. -/
def leastNumbers : RandomSource where
  getRandomU32 := 0
  below _ := 0
  inclusive floor _ := floor

theorem leastNumbers_documented : Documented leastNumbers where
  below _ positive := positive
  inclusive _ _ ordered := ⟨le_rfl, ordered⟩

theorem random_ranges_die :
    InRange 1 6 (kernelRandom leastNumbers (oneBound 6)) ∧
      CalledInDomain (kernelRandom leastNumbers (oneBound 6)) :=
  ((random_ranges_iff leastNumbers leastNumbers_documented).1 6).mpr (by decide)

/-- The bound 0 is accepted: the call is out of its domain and the answer is not in the empty
range. The bounds -5 and -1 are accepted, and the answer is a number above 2 ^ 31. -/
theorem random_out_of_range :
    (¬ InRange 1 0 (kernelRandom leastNumbers (oneBound 0)) ∧
      ¬ CalledInDomain (kernelRandom leastNumbers (oneBound 0))) ∧
    ¬ InRange (-5) (-1) (kernelRandom leastNumbers (twoBounds (-5) (-1))) := by
  have zero : kernelRandom leastNumbers (oneBound 0) = (some (.below 0), .ok 1) := by decide
  have negative : kernelRandom leastNumbers (twoBounds (-5) (-1)) =
      (some (.inclusive 0xfffffffb 0xffffffff), .ok 0xfffffffb) := by decide
  rw [zero, negative, inRange_ok, inRange_ok, calledInDomain_some]
  unfold InDomain
  decide

end Ranges

end Ksrc.Guarantees.LuaArguments

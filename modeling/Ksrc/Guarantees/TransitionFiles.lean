import Ksrc.Guarantees.ContextFiles
import Ksrc.Guarantees.FilenameKeys
import Ksrc.Guarantees.HashtabFiles

/-!
# Transitions of roles and ranges that are written and read again

Source: `security/selinux/ss/policydb.c` (`role_trans_write`, `role_allow_write`, `range_write`, the role
transitions of `policydb_read`, `range_read`, `role_trans_cmp`, `rangetr_cmp`).

The comparisons of the keys take differences as an `int`, which is an order since all values are less than
the lengths of arrays that were allocated.
-/
namespace Ksrc.Guarantees.TransitionFiles

open Library Source FilenameKeys HashtabFiles
  OrderedChains PoliciesInForce PolicyCodecs
  PolicydbShape PolicyImages ContextFiles

variable {p q : Policydb} {bytes rest : List U8}

section Comparison

variable {a b c a' b' c' : U32}

/-- Three differences in a row, the first that is not 0. -/
def cmp3 (a b c a' b' c' : U32) : Int :=
  if diffInt a a' ≠ 0 then diffInt a a' else if diffInt b b' ≠ 0 then diffInt b b' else diffInt c c'

theorem diffInt_small (left : a.toNat < 2 ^ 31) (right : a'.toNat < 2 ^ 31) :
    diffInt a a' = (a.toNat : Int) - a'.toNat := by
  unfold diffInt
  simp only [BitVec.toInt_eq_toNat_cond, BitVec.toNat_sub]
  omega

theorem cmp3_zero : cmp3 a b c a' b' c' = 0 ↔ a = a' ∧ b = b' ∧ c = c' := by
  unfold cmp3
  simp only [ne_eq, FilenameKeys.diffInt_zero]
  split
  · rename_i apart
    rw [FilenameKeys.diffInt_zero]
    exact iff_of_false apart fun same => apart same.1
  rename_i same
  split
  · rename_i apart
    rw [FilenameKeys.diffInt_zero]
    exact iff_of_false apart fun same => apart same.2.1
  rename_i same'
  rw [FilenameKeys.diffInt_zero]
  exact ⟨fun last => ⟨not_not.mp same, not_not.mp same', last⟩, fun all => all.2.2⟩

/-- Three values, each less than the half of a word. -/
def Small (key : List U32) : Prop := ∀ v ∈ key, v.toNat < 2 ^ 31

theorem cmp3_neg (left : Small [a, b, c]) (right : Small [a', b', c']) :
    cmp3 a b c a' b' c' < 0 ↔ [a.toNat, b.toNat, c.toNat] < [a'.toNat, b'.toNat, c'.toNat] := by
  have first := diffInt_small (left a (by simp)) (right a' (by simp))
  have second := diffInt_small (left b (by simp)) (right b' (by simp))
  have third := diffInt_small (left c (by simp)) (right c' (by simp))
  unfold cmp3
  simp only [List.cons_lt_cons_iff, List.lt_irrefl, and_false, or_false]
  split
  · omega
  split
  · omega
  · omega

/-- A comparison of three values is that of their row. -/
theorem cmp3_agrees {κ : Type} {cmp : κ → κ → Int} {first second third : κ → U32}
    (is : ∀ k k', cmp k k' = cmp3 (first k) (second k) (third k) (first k') (second k') (third k'))
    (ext : ∀ k k', first k = first k' → second k = second k' → third k = third k' → k = k') :
    Agrees cmp (fun k => [(first k).toNat, (second k).toNat, (third k).toNat])
      fun k => Small [first k, second k, third k] := by
  constructor
  · intro k k' left right
    rw [is]
    exact cmp3_neg left right
  · intro k k'
    rw [is, cmp3_zero]
    constructor
    · rintro ⟨one, two, three⟩
      exact ext k k' one two three
    · rintro rfl
      exact ⟨rfl, rfl, rfl⟩
  · intro k k' _ _ same
    simp only [List.cons.injEq, BitVec.toNat_inj, and_true] at same
    obtain ⟨one, two, three⟩ := same
    exact ext k k' one two three

theorem roleTrans_agrees : Agrees roletrKeyParams.cmp
    (fun k => [k.role.toNat, k.type.toNat, k.tclass.toNat]) fun k => Small [k.role, k.type, k.tclass] := by
  refine cmp3_agrees (fun k k' => rfl) fun k k' one two three => ?_
  cases k
  cases k'
  simp only [RoleTransKey.mk.injEq]
  exact ⟨one, two, three⟩

theorem rangetr_agrees : Agrees rangetrKeyParams.cmp
    (fun k => [k.sourceType.toNat, k.targetType.toNat, k.targetClass.toNat])
    fun k => Small [k.sourceType, k.targetType, k.targetClass] := by
  refine cmp3_agrees (fun k k' => rfl) fun k k' one two three => ?_
  cases k
  cases k'
  simp only [RangeTrans.mk.injEq]
  exact ⟨one, two, three⟩

end Comparison

section Read

/-- The arrays that `policydb_index` makes are not too long to be allocated. -/
structure FewSymbols (p : Policydb) : Prop where
  classes : p.pClasses.nprim.toNat < 2 ^ 28
  roles : p.pRoles.nprim.toNat < 2 ^ 28
  types : p.pTypes.nprim.toNat < 2 ^ 28

theorem pointerArray_few {α : Type} {nprim : U32} {array : List (Option α)}
    (made : pointerArray nprim = .ok array) : nprim.toNat < 2 ^ 28 := by
  unfold pointerArray at made
  split at made
  · cases made
  · rename_i room
    unfold kvmallocMax at room
    omega

theorem index_few (indexed : policydbIndex p = .ok q) : FewSymbols p := by
  simp only [policydbIndex, exceptBind_ok] at indexed
  obtain ⟨_, classes, _, roles, _, -, _, types, -⟩ := indexed
  exact ⟨pointerArray_few classes, pointerArray_few roles, pointerArray_few types⟩

theorem inForce_few (inForce : InForce p) : FewSymbols p := by
  obtain ⟨bytes, rest, s, rules⟩ := inForce_steps inForce
  obtain ⟨r, made⟩ := policydbReadRules_steps s.rules
  have few := index_few r.index
  have frame := r.frame
  rw [← made] at frame
  rw [filenameTransRead_ok r.names] at few
  rw [rules]
  unfold PolicySteps.policy
  rw [frame]
  exact ⟨few.classes, few.roles, few.types⟩

theorem small_of_valid {nprim v : U32} (few : nprim.toNat < 2 ^ 28) (valid : valueIsvalid nprim v = true) :
    v.toNat < 2 ^ 31 := by
  unfold valueIsvalid at valid
  simp only [Bool.and_eq_true, decide_eq_true_eq, BitVec.le_def] at valid
  omega

/-- A role transition as `policydb_read` lets one in. -/
structure RoleTransRead (p : Policydb) (e : RoleTransKey × RoleTransDatum) : Prop where
  valid : policydbRoleIsvalid p e.1.role ∧ policydbTypeIsvalid p e.1.type ∧ policydbClassIsvalid p e.1.tclass ∧
    policydbRoleIsvalid p e.2.newRole
  tclass : ¬ policydbVersionRoletrans ≤ p.policyvers → e.1.tclass = p.processClass.zeroExtend 32

/-- A range transition as `range_read` lets one in. -/
structure RangeTransRead (p : Policydb) (e : RangeTrans × MlsRange) : Prop where
  valid : policydbTypeIsvalid p e.1.sourceType ∧ policydbTypeIsvalid p e.1.targetType ∧
    policydbClassIsvalid p e.1.targetClass
  range : mlsRangeIsvalid p e.2 = .ok true
  tclass : ¬ policydbVersionRangetrans ≤ p.policyvers → e.1.targetClass = p.processClass.zeroExtend 32

theorem RoleTransRead.small {e : RoleTransKey × RoleTransDatum} (few : FewSymbols p) (ok : RoleTransRead p e) :
    Small [e.1.role, e.1.type, e.1.tclass] := by
  obtain ⟨role, type, tclass, -⟩ := ok.valid
  simp only [Small, List.forall_mem_cons]
  exact ⟨small_of_valid few.roles role, small_of_valid few.types type, small_of_valid few.classes tclass,
    fun _ none => nomatch none⟩

theorem RangeTransRead.small {e : RangeTrans × MlsRange} (few : FewSymbols p) (ok : RangeTransRead p e) :
    Small [e.1.sourceType, e.1.targetType, e.1.targetClass] := by
  obtain ⟨source, target, tclass⟩ := ok.valid
  simp only [Small, List.forall_mem_cons]
  exact ⟨small_of_valid few.types source, small_of_valid few.types target, small_of_valid few.classes tclass,
    fun _ none => nomatch none⟩

theorem roleTransReadOne_inserts {t t' : Hashtab RoleTransKey RoleTransDatum}
    (read : roleTransReadOne p t bytes = .ok (t', rest)) :
    ∃ e, RoleTransRead p e ∧ hashtabInsert roletrKeyParams t e.1 e.2 = .ok t' := by
  simp only [roleTransReadOne, ByteReader.bind_ok, ByteReader.require_ok, ByteReader.lift_ok] at read
  obtain ⟨role, _, -, type, _, -, newRole, _, -, tclass, _, class', _, _, ⟨valid, -⟩, inserted, -⟩ := read
  refine ⟨(⟨role, type, tclass⟩, ⟨newRole⟩), ⟨valid, fun old => ?_⟩, inserted⟩
  rw [if_neg old, ByteReader.pure_ok] at class'
  exact class'.1.symm

theorem rangeReadOne_inserts {t t' : Hashtab RangeTrans MlsRange}
    (read : rangeReadOne p t bytes = .ok (t', rest)) :
    ∃ e, RangeTransRead p e ∧ hashtabInsert rangetrKeyParams t e.1 e.2 = .ok t' := by
  simp only [rangeReadOne, ByteReader.bind_ok, ByteReader.require_ok, ByteReader.lift_ok] at read
  obtain ⟨source, _, -, target, _, -, tclass, _, class', _, _, ⟨valid, -⟩, range, _, -, _, _, ⟨checked, -⟩, _, _,
    ⟨rfl, -⟩, inserted, -⟩ := read
  refine ⟨(⟨source, target, tclass⟩, range), ⟨valid, checked, fun old => ?_⟩, inserted⟩
  rw [if_neg old, ByteReader.pure_ok] at class'
  exact class'.1.symm

end Read

section Written

/-- A class that the file has from some version on. -/
theorem class_carries {tclass : U32} {new : Prop} [Decidable new]
    (old : ¬ new → tclass = p.processClass.zeroExtend 32) :
    Carries einval (if new then putU32 tclass else ByteWriter.skip)
      (if new then nextU32 else pure (p.processClass.zeroExtend 32)) tclass := by
  by_cases here : new
  · rw [if_pos here, if_pos here]
    exact u32_carries tclass
  · rw [if_neg here, if_neg here, ← old here]
    exact .pure tclass

theorem roleTransOne_carries {e : RoleTransKey × RoleTransDatum} {t t' : Hashtab RoleTransKey RoleTransDatum}
    (ok : RoleTransRead p e) (inserted : hashtabInsert roletrKeyParams t e.1 e.2 = .ok t') :
    Carries einval (roleTransWriteOne p e) (roleTransReadOne p t) t' :=
  (u32_carries _).cons ((u32_carries _).cons ((u32_carries _).cons ((class_carries ok.tclass).cons
    (.require ok.valid (.lifted inserted)))))

theorem rangeOne_carries {e : RangeTrans × MlsRange} {t t' : Hashtab RangeTrans MlsRange}
    (ok : RangeTransRead p e) (stored : RangeStored e.2)
    (inserted : hashtabInsert rangetrKeyParams t e.1 e.2 = .ok t') :
    Carries einval (rangeWriteHelper p e) (rangeReadOne p t) t' :=
  (u32_carries _).cons ((u32_carries _).cons ((class_carries ok.tclass).cons (.require ok.valid
    ((range_carries stored).cons (.lift ok.range (.require rfl (.lifted inserted)))))))

theorem roleAllow_carries {list : List RoleAllow} (read : roleAllowRead p bytes = .ok (list, rest)) :
    Carries einval (roleAllowWrite list) (roleAllowRead p) list := by
  simp only [roleAllowRead, ByteReader.bind_ok] at read
  obtain ⟨nel, _, -, entries⟩ := read
  have length := ByteReader.several_length entries
  have count : (BitVec.ofNat 32 list.length).toNat = list.length := by
    rw [length, BitVec.ofNat_toNat, BitVec.setWidth_eq]
  have valid : ∀ a ∈ list, policydbRoleIsvalid p a.role ∧ policydbRoleIsvalid p a.newRole :=
    ByteReader.several_all (fun s a rest once => by
      simp only [roleAllowReadOne, ByteReader.bind_ok, ByteReader.require_ok, ByteReader.pure_ok] at once
      obtain ⟨_, _, -, _, _, -, _, _, ⟨valid, -⟩, rfl, -⟩ := once
      exact valid) entries
  refine (u32_carries _).cons ?_
  rw [count]
  refine Carries.last (.row fun a member => ?_)
  exact (u32_carries _).cons ((u32_carries _).cons (.require (valid a member) (.pure a)))

theorem rangeRead_new (mls : policydbVersionMls ≤ p.policyvers) :
    rangeRead p = nextU32 >>= fun nel => ByteReader.lift (hashtabInit nel) >>= fun table =>
      ByteReader.times (rangeReadOne p) nel.toNat table := by
  unfold rangeRead
  exact if_neg (BitVec.not_lt.mpr mls)

/-- The tables of transitions of a policy in force, each as it was read. -/
structure TransitionsRead (p : Policydb) : Prop where
  roleTr : ∃ bytes rest, roleTransRead p bytes = .ok (p.roleTr, rest)
  roleAllow : ∃ bytes rest, roleAllowRead p bytes = .ok (p.roleAllow, rest)
  rangeTr : policydbVersionMls ≤ p.policyvers → ∃ bytes rest, rangeRead p bytes = .ok (p.rangeTr, rest)

theorem inForce_transitions (inForce : InForce p) : TransitionsRead p := by
  obtain ⟨bytes, rest, s, rules⟩ := inForce_steps inForce
  obtain ⟨r, made⟩ := policydbReadRules_steps s.rules
  have frame := r.frame
  rw [← made] at frame
  have roles := r.roleTrans
  have allows := r.allows
  have ranges := s.ranges
  rw [rules]
  unfold PolicySteps.policy
  refine ⟨⟨r.atRoles, r.atAllows, ?_⟩, ⟨r.atAllows, r.atNames, ?_⟩, fun mls => ⟨s.atRanges, s.atAttrs, ?_⟩⟩
  · rw [frame]
    exact roles
  · rw [frame]
    exact allows
  · rw [rangeRead_new mls]
    rw [rangeRead_new (p := s.q) mls] at ranges
    exact ranges

theorem roleTrans_carries (few : FewSymbols p) (read : roleTransRead p bytes = .ok (p.roleTr, rest)) :
    Carries einval (roleTransWrite p) (roleTransRead p) p.roleTr := by
  obtain ⟨settled, entries⟩ := table_read roleTrans_agrees (fun e ok => RoleTransRead.small few ok)
    (fun t bytes t' rest once => roleTransReadOne_inserts once) read
  exact table_carries settled fun t e t' member inserted => roleTransOne_carries (entries e member) inserted

theorem rangeTrans_carries (few : FewSymbols p) (mls : policydbVersionMls ≤ p.policyvers)
    (ordinary : ∀ e ∈ p.rangeTr.entries, RangeStored e.2) (read : rangeRead p bytes = .ok (p.rangeTr, rest)) :
    Carries einval (rangeWrite p) (rangeRead p) p.rangeTr := by
  unfold rangeWrite
  rw [rangeRead_new mls] at read ⊢
  obtain ⟨settled, entries⟩ := table_read rangetr_agrees (fun e ok => RangeTransRead.small few ok)
    (fun t bytes t' rest once => rangeReadOne_inserts once) read
  exact table_carries settled fun t e t' member inserted =>
    rangeOne_carries (entries e member) (ordinary e member) inserted

/-- Two transitions of each kind, the greater keys first. -/
def transitionsImage : PolicyImage :=
  { smallImage with
    levels := symbols 1 [sensBytes 1 (cstr ['s']) emptyBitmap]
    roleTrans := counted [word 1 ++ word 2 ++ word 1 ++ word 1, word 1 ++ word 1 ++ word 1 ++ word 1]
    roleAllow := counted [word 1 ++ word 1]
    rangeTrans := counted [word 2 ++ word 1 ++ word 1 ++ rangeBytes 1,
      word 1 ++ word 1 ++ word 1 ++ rangeBytes 1] }

def transitionsPlain (p : Policydb) : Bool :=
  p.policyvers == 33 && p.roleTr.nel == 2 && p.rangeTr.nel == 2 &&
    p.rangeTr.entries.all fun e => e.2.low.cat == ebitmapInit && e.2.high.cat == ebitmapInit

end Written

end Ksrc.Guarantees.TransitionFiles

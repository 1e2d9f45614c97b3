import Ksrc.Source.Ebitmap

/-!
# Security contexts

Source: `security/selinux/ss/context.h`, `context.c`, `mls_types.h`, `mls.h`.

`jhash` and `full_name_hash` belong to the rest of the kernel and are parameters.
-/
namespace Ksrc.Source

structure MlsLevel where
  sens : U32
  cat : Ebitmap
  deriving DecidableEq, Repr

/-- `struct mls_range`: `level[0]` is the low level, `level[1]` the high one. -/
structure MlsRange where
  low : MlsLevel
  high : MlsLevel
  deriving DecidableEq, Repr

/-- `struct context`. A context that cannot be mapped has `str`, the bytes of its
string without the final NUL; every writer sets `len` together with `str`, so
`len` is computed. -/
structure Context where
  user : U32
  role : U32
  type : U32
  range : MlsRange
  str : Option (List U8)
  deriving DecidableEq, Repr

namespace Context

/-- `len`: the string and its NUL, 0 for a mapped context. -/
def len (c : Context) : Nat :=
  match c.str with
  | some str => str.length + 1
  | none => 0

end Context

/-- `mls_level_eq`. -/
def mlsLevelEq (l1 l2 : MlsLevel) : Bool := l1.sens == l2.sens && ebitmapCmp l1.cat l2.cat

/-- `mls_context_cmp`. -/
def mlsContextCmp (c1 c2 : Context) : Bool :=
  c1.range.low.sens == c2.range.low.sens && ebitmapCmp c1.range.low.cat c2.range.low.cat &&
    (c1.range.high.sens == c2.range.high.sens && ebitmapCmp c1.range.high.cat c2.range.high.cat)

/-- `context_init`. -/
def contextInit : Context :=
  { user := 0, role := 0, type := 0, range := ⟨⟨0, ebitmapInit⟩, ⟨0, ebitmapInit⟩⟩, str := none }

/-- `context_cmp`. -/
def contextCmp (c1 c2 : Context) : Bool :=
  if c1.len ≠ 0 ∧ c2.len ≠ 0 then c1.len == c2.len && c1.str == c2.str
  else if c1.len ≠ 0 ∨ c2.len ≠ 0 then false
  else c1.user == c2.user && c1.role == c2.role && c1.type == c2.type && mlsContextCmp c1 c2

/-- What `context_cmp` compares: the string of an unmapped context, the four
components of a mapped one. -/
def Context.identity (c : Context) : List U8 ⊕ (U32 × U32 × U32 × MlsRange) :=
  match c.str with
  | some str => .inl str
  | none => .inr (c.user, c.role, c.type, c.range)

theorem mlsContextCmp_iff (c1 c2 : Context) : mlsContextCmp c1 c2 = true ↔ c1.range = c2.range := by
  obtain ⟨_, _, _, ⟨⟨_, _⟩, ⟨_, _⟩⟩, _⟩ := c1
  obtain ⟨_, _, _, ⟨⟨_, _⟩, ⟨_, _⟩⟩, _⟩ := c2
  simp only [mlsContextCmp, Bool.and_eq_true, beq_iff_eq, ebitmapCmp_iff, MlsRange.mk.injEq,
    MlsLevel.mk.injEq]

/-- So `context_cmp` is equality of what it compares. -/
theorem contextCmp_iff (c1 c2 : Context) :
    contextCmp c1 c2 = true ↔ c1.identity = c2.identity := by
  cases h1 : c1.str with
  | some str1 =>
    cases h2 : c2.str with
    | some str2 =>
      simp only [contextCmp, Context.len, Context.identity, h1, h2, Sum.inl.injEq]
      constructor
      · intro same
        have both : str1.length = str2.length ∧ str1 = str2 := by simpa using same
        exact both.2
      · rintro rfl
        simp
    | none => simp [contextCmp, Context.len, Context.identity, h1, h2]
  | none =>
    cases h2 : c2.str with
    | some str2 => simp [contextCmp, Context.len, Context.identity, h1, h2]
    | none =>
      simp only [contextCmp, Context.len, Context.identity, h1, h2, ne_eq, not_true_eq_false,
        and_self, or_self, if_false, Bool.and_eq_true, beq_iff_eq, mlsContextCmp_iff,
        Sum.inr.injEq, Prod.mk.injEq]
      tauto

/-- The hash functions of the kernel that a context hash is built from, and the
`hash_min` that picks the bucket of a hash. -/
structure Jhash where
  words3 : U32 → U32 → U32 → U32 → U32
  words2 : U32 → U32 → U32 → U32
  word1 : U32 → U32 → U32
  maps : Vector U64 ebitmapUnitNums → U32 → U32
  fullName : List U8 → U32
  hashMin : U32 → Nat

/-- `ebitmap_hash`. -/
def ebitmapHash (j : Jhash) (e : Ebitmap) (hash : U32) : U32 :=
  e.node.foldl (fun hash node => j.maps node.maps (j.word1 node.startbit hash))
    (j.word1 e.highbit hash)

/-- `mls_range_hash`. -/
def mlsRangeHash (j : Jhash) (r : MlsRange) (hash : U32) : U32 :=
  ebitmapHash j r.high.cat (ebitmapHash j r.low.cat (j.words2 r.low.sens r.high.sens hash))

/-- `context_compute_hash`. -/
def contextComputeHash (j : Jhash) (c : Context) : U32 :=
  match c.str with
  | some str => j.fullName str
  | none => mlsRangeHash j c.range (j.words3 c.user c.role c.type 0)

/-- Contexts that compare equal have one hash. -/
theorem contextComputeHash_of_cmp {j : Jhash} {c1 c2 : Context}
    (same : contextCmp c1 c2 = true) : contextComputeHash j c1 = contextComputeHash j c2 := by
  rw [contextCmp_iff] at same
  cases h1 : c1.str <;> cases h2 : c2.str <;>
    simp only [Context.identity, h1, h2, Sum.inl.injEq, Sum.inr.injEq, Prod.mk.injEq,
      reduceCtorEq] at same
  · simp only [contextComputeHash, h1, h2, same]
  · simp only [contextComputeHash, h1, h2, same]

theorem contextCmp_refl (c : Context) : contextCmp c c = true := (contextCmp_iff c c).mpr rfl

theorem contextCmp_symm {c1 c2 : Context} (same : contextCmp c1 c2 = true) :
    contextCmp c2 c1 = true :=
  (contextCmp_iff c2 c1).mpr ((contextCmp_iff c1 c2).mp same).symm

theorem contextCmp_trans {c1 c2 c3 : Context} (first : contextCmp c1 c2 = true)
    (second : contextCmp c2 c3 = true) : contextCmp c1 c3 = true :=
  (contextCmp_iff c1 c3).mpr
    (((contextCmp_iff c1 c2).mp first).trans ((contextCmp_iff c2 c3).mp second))

end Ksrc.Source

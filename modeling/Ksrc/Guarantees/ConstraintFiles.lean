import Ksrc.Guarantees.ConstraintExprs
import Ksrc.Guarantees.PolicyCodecs

/-!
# Constraints that are written and read again

Source: `security/selinux/ss/policydb.c` (`write_cons_helper`, `read_cons_helper`,
`type_set_write`, `type_set_read`), `security/selinux/ss/services.c` (`constraint_expr_eval`).

The reader follows the height of the stack entry by entry, so a constraint it let through is let through
again. The names come back with the same bits, on which alone the evaluation depends.
-/
namespace Ksrc.Guarantees.ConstraintFiles

open Library Source EbitmapBits EbitmapFiles
open ConstraintExprs PolicyCodecs

variable {vers : U32} {allowxtarget : Bool} {e e' : ConstraintExpr} {es es' : List ConstraintExpr}
  {c c' : ConstraintNode} {bytes rest : List U8}

/-- Bits that an `int` counts. -/
structure ExprCountable (e : ConstraintExpr) : Prop where
  names : Countable e.names
  typeNames : ∀ t ∈ e.typeNames, Countable t.types ∧ Countable t.negset

structure TypeSetRewritten (t t' : TypeSet) : Prop where
  types : Rewritten t.types t'.types
  negset : Rewritten t.negset t'.negset
  flags : t'.flags = t.flags

/-- The same entry, but for the form of its bitmaps. -/
structure ExprRewritten (e e' : ConstraintExpr) : Prop where
  exprType : e'.exprType = e.exprType
  attr' : e'.attr = e.attr
  op : e'.op = e.op
  names : Rewritten e.names e'.names
  typeNames : Option.Rel TypeSetRewritten e.typeNames e'.typeNames

/-- The same constraint, but for the form of its bitmaps. -/
structure NodeRewritten (c c' : ConstraintNode) : Prop where
  permissions : c'.permissions = c.permissions
  expr : List.Forall₂ ExprRewritten c.expr c'.expr

section Entries

theorem init_rewritten : Rewritten ebitmapInit ebitmapInit :=
  ⟨⟨trivial, rfl⟩, fun _ => rfl, rfl⟩

theorem typeSet_carries {t : TypeSet} (types : Built t.types) (negset : Built t.negset)
    (small : Countable t.types ∧ Countable t.negset) :
    ∃ t', TypeSetRewritten t t' ∧ Carries einval (typeSetWrite t) typeSetRead t' := by
  obtain ⟨types', sameTypes, carriedTypes⟩ := bitmap_rewritten types small.1
  obtain ⟨negset', sameNegset, carriedNegset⟩ := bitmap_rewritten negset small.2
  refine ⟨⟨types', negset', t.flags⟩, ⟨sameTypes, sameNegset, rfl⟩, ?_⟩
  exact carriedTypes.cons (carriedNegset.cons
    ((u32_carries t.flags).last.map (g := fun flags => (⟨types', negset', flags⟩ : TypeSet))))

theorem typeSetRead_built {t : TypeSet} (read : typeSetRead bytes = .ok (t, rest)) :
    Built t.types ∧ Built t.negset := by
  simp only [typeSetRead, ByteReader.bind_ok, ByteReader.pure_ok] at read
  obtain ⟨types, _, first, negset, _, second, flags, _, -, rfl, -⟩ := read
  exact ⟨ebitmapRead_built first, ebitmapRead_built second⟩

/-- An entry that was read is carried to one with the same bits, at the same depth. -/
theorem expr_carries {depth depth' : Int} (read : readConsExpr vers allowxtarget depth bytes = .ok ((depth', e), rest))
    (small : ExprCountable e) :
    ∃ e', ExprRewritten e e' ∧
      Carries einval (writeConsExpr vers e) (readConsExpr vers allowxtarget depth) (depth', e') := by
  simp only [readConsExpr, ByteReader.bind_ok, ByteReader.lift_ok] at read
  obtain ⟨exprType, _, -, at', _, -, op, _, -, next, _, ⟨checked, -⟩, tail⟩ := read
  unfold writeConsExpr readConsExpr
  by_cases isNames : exprType = cexprNames
  · rw [if_pos isNames, ByteReader.bind_ok] at tail
    obtain ⟨names, _, readNames, tail⟩ := tail
    by_cases typed : policydbVersionConstraintNames ≤ vers
    · rw [if_pos typed, ByteReader.bind_ok] at tail
      obtain ⟨typeNames, _, readTypes, made⟩ := tail
      obtain ⟨same, -⟩ := ByteReader.pure_ok.mp made
      cases same
      obtain ⟨names', sameNames, carriedNames⟩ := bitmap_rewritten (ebitmapRead_built readNames) small.names
      obtain ⟨builtTypes, builtNegset⟩ := typeSetRead_built readTypes
      obtain ⟨typeNames', sameTypes, carriedTypes⟩ :=
        typeSet_carries builtTypes builtNegset (small.typeNames typeNames rfl)
      refine ⟨⟨exprType, at', op, names', some typeNames'⟩, ⟨rfl, rfl, rfl, sameNames, .some sameTypes⟩, ?_⟩
      rw [if_pos isNames, if_pos typed]
      refine (u32_carries _).cons ((u32_carries _).cons ((u32_carries _).cons (.lift checked ?_)))
      rw [if_pos isNames]
      refine carriedNames.cons ?_
      rw [if_pos typed]
      exact carriedTypes.last.map 
        (g := fun t => (depth', (⟨exprType, at', op, names', some t⟩ : ConstraintExpr)))
    · rw [if_neg typed] at tail
      obtain ⟨same, -⟩ := ByteReader.pure_ok.mp tail
      cases same
      obtain ⟨names', sameNames, carriedNames⟩ := bitmap_rewritten (ebitmapRead_built readNames) small.names
      refine ⟨⟨exprType, at', op, names', none⟩, ⟨rfl, rfl, rfl, sameNames, .none⟩, ?_⟩
      rw [if_pos isNames, if_neg typed]
      refine (u32_carries _).cons ((u32_carries _).cons ((u32_carries _).cons (.lift checked ?_)))
      rw [if_pos isNames]
      refine carriedNames.cons ?_
      rw [if_neg typed]
      exact .pure _
  · rw [if_neg isNames] at tail
    obtain ⟨same, -⟩ := ByteReader.pure_ok.mp tail
    cases same
    refine ⟨_, ⟨rfl, rfl, rfl, init_rewritten, .none⟩, ?_⟩
    rw [if_neg isNames]
    refine (u32_carries _).cons ((u32_carries _).cons ((u32_carries _).cons (.lift checked ?_)))
    rw [if_neg isNames]
    exact .pure _

theorem exprs_carry {nexpr : Nat} {depth final : Int}
    (read : readConsExprs vers allowxtarget nexpr depth bytes = .ok ((final, es), rest))
    (small : ∀ e ∈ es, ExprCountable e) :
    ∃ es', List.Forall₂ ExprRewritten es es' ∧
      Carries einval (ByteWriter.each (writeConsExpr vers) es)
        (readConsExprs vers allowxtarget nexpr depth) (final, es') := by
  induction nexpr generalizing depth es bytes with
  | zero =>
    obtain ⟨same, -⟩ := ByteReader.pure_ok.mp read
    cases same
    exact ⟨[], .nil, .pure _⟩
  | succ nexpr ih =>
    simp only [readConsExprs, ByteReader.bind_ok] at read
    obtain ⟨⟨depth', e⟩, _, one, ⟨last, more⟩, _, others, whole⟩ := read
    obtain ⟨same, rfl⟩ := ByteReader.pure_ok.mp whole
    simp only [Prod.mk.injEq] at same
    obtain ⟨rfl, rfl⟩ := same
    obtain ⟨e', sameFirst, carriedFirst⟩ := expr_carries one (small e List.mem_cons_self)
    obtain ⟨es', sameRest, carriedRest⟩ := ih others fun e member => small e (List.mem_cons_of_mem _ member)
    exact ⟨e' :: es', .cons sameFirst sameRest,
      carriedFirst.andThen (carriedRest.map (g := fun found => (found.1, e' :: found.2)))⟩

theorem exprs_length {nexpr : Nat} {depth final : Int}
    (read : readConsExprs vers allowxtarget nexpr depth bytes = .ok ((final, es), rest)) :
    es.length = nexpr := by
  induction nexpr generalizing depth es bytes with
  | zero =>
    obtain ⟨same, -⟩ := ByteReader.pure_ok.mp read
    cases same
    rfl
  | succ nexpr ih =>
    simp only [readConsExprs, ByteReader.bind_ok] at read
    obtain ⟨⟨depth', e⟩, _, -, ⟨last, more⟩, _, others, whole⟩ := read
    obtain ⟨same, rfl⟩ := ByteReader.pure_ok.mp whole
    simp only [Prod.mk.injEq] at same
    obtain ⟨rfl, rfl⟩ := same
    rw [List.length_cons, ih others]

/-- A constraint that was read; the stack has one value at its end, as it had. -/
theorem node_carries (read : readConsNode vers allowxtarget bytes = .ok (c, rest))
    (small : ∀ e ∈ c.expr, ExprCountable e) :
    ∃ c', NodeRewritten c c' ∧ Carries einval (writeConsNode vers c) (readConsNode vers allowxtarget) c' := by
  simp only [readConsNode, ByteReader.bind_ok, ByteReader.pure_ok, ByteReader.require_ok] at read
  obtain ⟨permissions, _, -, nexpr, _, -, ⟨depth, expr⟩, _, exprs, _, _, ⟨zero, -⟩, rfl, -⟩ := read
  obtain ⟨expr', same, carried⟩ := exprs_carry exprs small
  have number : (BitVec.ofNat 32 expr.length).toNat = nexpr.toNat := by
    rw [exprs_length exprs, BitVec.ofNat_toNat, BitVec.setWidth_eq]
  refine ⟨⟨permissions, expr'⟩, ⟨rfl, same⟩, ?_⟩
  refine (u32_carries _).cons ((u32_carries _).cons ?_)
  rw [number]
  exact carried.cons (.require zero (.pure _))

end Entries

section Meaning

/-- The bytes are the same. -/
theorem expr_again (same : ExprRewritten e e') : writeConsExpr vers e' = writeConsExpr vers e := by
  unfold writeConsExpr
  rw [same.exprType, same.attr', same.op, same.names.again]
  have typed := same.typeNames
  generalize e.typeNames = t at typed ⊢
  generalize e'.typeNames = t' at typed ⊢
  cases typed with
  | none => rfl
  | some same => simp only [typeSetWrite, same.types.again, same.negset.again, same.flags]

theorem each_again {γ : Type} {rel : γ → γ → Prop} {w : γ → PolicyWriter} {values values' : List γ}
    (same : List.Forall₂ rel values values') (again : ∀ a b, rel a b → w b = w a) :
    ByteWriter.each w values' = ByteWriter.each w values := by
  induction same with
  | nil => rfl
  | cons first _ ih => rw [ByteWriter.each, ByteWriter.each, again _ _ first, ih]

theorem node_again (same : NodeRewritten c c') : writeConsNode vers c' = writeConsNode vers c := by
  unfold writeConsNode
  rw [same.permissions, same.expr.length_eq, each_again same.expr fun _ _ => expr_again]

variable {p : Policydb} {scontext tcontext : Context} {xcontext : Option Context}

theorem evalNames_same (same : ExprRewritten e e') :
    cexprEvalNames scontext tcontext xcontext e' = cexprEvalNames scontext tcontext xcontext e := by
  unfold cexprEvalNames
  simp only [same.attr', same.op, same.names.bits]

theorem evalAttr_same (same : ExprRewritten e e') :
    cexprEvalAttr p scontext tcontext e' = cexprEvalAttr p scontext tcontext e := by
  unfold cexprEvalAttr
  rw [same.attr', same.op]

/-- The evaluation goes through the same stacks. -/
theorem eval_same (same : List.Forall₂ ExprRewritten es es') (stack : List Bool) :
    constraintExprEval p scontext tcontext xcontext es' stack =
      constraintExprEval p scontext tcontext xcontext es stack := by
  induction same generalizing stack with
  | nil => rfl
  | cons first _ ih =>
    unfold constraintExprEval
    simp only [first.exprType, evalAttr_same first, evalNames_same first, ih]

end Meaning

/-- One user of the node, with the types it was made of. -/
def oneUser : ConstraintExpr :=
  { exprType := cexprNames, attr := cexprUser, op := cexprEq
    names := { node := [{ startbit := 0, maps := #v[4, 0, 0, 0, 0, 0] }], highbit := 384 }
    typeNames := some ⟨ebitmapInit, ebitmapInit, 0⟩ }

def oneUserBytes : List U8 :=
  [1, 1, cexprNames, cexprUser, cexprEq, 64, 384, 1, 0, 4, 0, 64, 0, 0, 64, 0, 0, 0].flatMap cpuToLe32

end Ksrc.Guarantees.ConstraintFiles

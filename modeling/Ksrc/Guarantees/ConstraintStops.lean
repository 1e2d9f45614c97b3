import Ksrc.Library.OperandTrees
import Ksrc.Source.ConstraintSteps
import Mathlib.Tactic.Tauto

/-!
# Where a constraint expression stops

The entries of an expression, one after the other, are its evaluation. A leaf whose attribute and
operator are handled has a value where the roles of both contexts are there; any other is a `BUG()`.
-/
namespace Ksrc.Guarantees.ConstraintStops

open Library Source

section Same

variable {p : Policydb} {scontext tcontext : Context} {xcontext : Option Context} {op : U32}

theorem cexprCompare_error {val1 val2 : U32} {f : Fault} (failed : cexprCompare op val1 val2 = .error f) :
    f = .oops := by
  unfold cexprCompare at failed
  grind

theorem cexprMls_error {l1 l2 : MlsLevel} {f : Fault} (failed : cexprMls op l1 l2 = .error f) :
    f = .oops := by
  unfold cexprMls at failed
  grind

theorem atValue_error {α : Type} {array : List α} {value : U32} {f : Fault}
    (failed : atValue array value = .error f) : f = .oops := by
  unfold atValue at failed
  split at failed
  · cases failed
  · cases failed
    rfl

theorem cexprEvalNames_error {e : ConstraintExpr} {f : Fault}
    (failed : cexprEvalNames scontext tcontext xcontext e = .error f) : f = .oops := by
  unfold cexprEvalNames derefPtr at failed
  simp only [bind, Except.bind, pure, Except.pure] at failed
  grind

/-- A leaf, as the evaluator and as its entries see it. -/
def SameLeaf (seen : Except Fault Bool) (step : Except CexprStop Bool) : Prop :=
  (∃ v, seen = .ok v ∧ step = .ok v) ∨
    seen = .error .oops ∧ ∃ stop, stop ≠ .early ∧ step = .error stop

theorem sameLeaf_stopAs {seen : Except Fault Bool} {stop : CexprStop}
    (failures : ∀ f, seen = .error f → f = .oops) (late : stop ≠ .early) :
    SameLeaf seen (stopAs stop seen) := by
  cases seen with
  | ok v => exact .inl ⟨v, rfl, rfl⟩
  | error f =>
    obtain rfl := failures f rfl
    exact .inr ⟨rfl, stop, late, rfl⟩

theorem sameLeaf_fault {seen : Except Fault Bool} {f : Fault} (failed : seen = .error f)
    (kind : f = .oops) : SameLeaf seen (.error .fault) := by
  subst kind
  exact .inr ⟨failed, .fault, by decide, rfl⟩

theorem roleDominates_error {r : Option RoleDatum} {value : U32} {f : Fault}
    (failed : roleDominates r value = .error f) : f = .oops := by
  cases r with
  | none =>
    cases failed
    rfl
  | some role => cases failed

theorem sameLeaf_roles (val1 val2 : U32) :
    SameLeaf (cexprRoles p op val1 val2) (cexprRolesStep p op val1 val2) := by
  unfold cexprRolesStep
  cases one : atValue p.roleValToStruct val1 with
  | error f =>
    have failed : cexprRoles p op val1 val2 = .error f := by
      unfold cexprRoles
      rw [one]
      rfl
    exact sameLeaf_fault failed (atValue_error one)
  | ok r1 =>
    cases other : atValue p.roleValToStruct val2 with
    | error f =>
      have failed : cexprRoles p op val1 val2 = .error f := by
        unfold cexprRoles
        rw [one, other]
        rfl
      exact sameLeaf_fault failed (atValue_error other)
    | ok r2 =>
      have roles : ∀ f, cexprRoles p op val1 val2 = .error f → f = .oops := by
        intro f failed
        unfold cexprRoles at failed
        rw [one, other] at failed
        simp only [bind, Except.bind, pure, Except.pure] at failed
        split at failed
        · exact roleDominates_error failed
        split at failed
        · exact roleDominates_error failed
        split at failed
        · split at failed
          · rename_i first
            cases failed
            exact roleDominates_error first
          · split at failed
            · cases failed
            · split at failed
              · rename_i second
                cases failed
                exact roleDominates_error second
              · cases failed
        · exact cexprCompare_error failed
      simp only [stopAs, bind, Except.bind]
      split
      · exact sameLeaf_stopAs roles (by decide)
      · rename_i plain
        have same : cexprRoles p op val1 val2 = cexprCompare op val1 val2 := by
          unfold cexprRoles
          rw [one, other]
          simp only [bind, Except.bind]
          rw [if_neg (fun h => plain (.inl h)), if_neg (fun h => plain (.inr (.inl h))),
            if_neg (fun h => plain (.inr (.inr h)))]
        rw [same]
        exact sameLeaf_stopAs (fun f => cexprCompare_error) (by decide)

theorem sameLeaf_attr (e : ConstraintExpr) :
    SameLeaf (cexprEvalAttr p scontext tcontext e) (cexprEvalAttrStep p scontext tcontext e) := by
  unfold cexprEvalAttrStep
  split
  · rename_i role
    have same : cexprEvalAttr p scontext tcontext e =
        cexprRoles p e.op scontext.role tcontext.role := by
      unfold cexprEvalAttr
      rw [role, if_neg (by decide), if_neg (by decide), if_pos rfl]
    rw [same]
    exact sameLeaf_roles _ _
  · rename_i other
    refine sameLeaf_stopAs (fun f failed => ?_) (by decide)
    unfold cexprEvalAttr at failed
    rw [if_neg other] at failed
    grind [cexprCompare_error, cexprMls_error]

theorem seen_late {stop : CexprStop} (late : stop ≠ .early) :
    CexprStop.seen (.error stop) = .error .oops := by
  cases stop with
  | early => exact absurd rfl late
  | bug => rfl
  | fault => rfl

/-- The entries together are the evaluator. -/
theorem constraintExprEval_seen (expr : List ConstraintExpr) (stack : List Bool) :
    constraintExprEval p scontext tcontext xcontext expr stack =
      CexprStop.seen (constraintExprSteps p scontext tcontext xcontext expr stack >>=
        constraintExprResult) := by
  induction expr generalizing stack with
  | nil =>
    match stack with
    | [] => rfl
    | [v] => rfl
    | _ :: _ :: _ => rfl
  | cons e rest ih =>
    unfold constraintExprEval constraintExprSteps constraintExprStep
    split
    · cases stack with
      | nil => rfl
      | cons a below => exact ih _
    split
    · match stack with
      | [] => rfl
      | [_] => rfl
      | b :: a :: below => exact ih _
    split
    · match stack with
      | [] => rfl
      | [_] => rfl
      | b :: a :: below => exact ih _
    split
    · split
      · rfl
      · have leaf : SameLeaf (cexprEvalAttr p scontext tcontext e) _ := sameLeaf_attr e
        rcases leaf with ⟨v, seen, step⟩ | ⟨seen, stop, late, step⟩
        · rw [seen, step]
          exact ih (v :: stack)
        · rw [seen, step]
          exact (seen_late late).symm
    split
    · split
      · rfl
      · cases names : cexprEvalNames scontext tcontext xcontext e with
        | ok v => exact ih (v :: stack)
        | error f =>
          rw [cexprEvalNames_error names]
          rfl
    · rfl

end Same

section Leaves

variable {p : Policydb} {scontext tcontext : Context} {xcontext : Option Context} {op : U32}
  {e : ConstraintExpr}

/-- What an operator says about two things: whether they are equal, the first is at or above the
second, the second at or above the first. -/
def related (op : U32) (equal dom domby : Bool) : Bool :=
  if op = cexprEq then equal
  else if op = cexprNeq then !equal
  else if op = cexprDom then dom
  else if op = cexprDomby then domby
  else !dom && !domby

/-- Whether a role has another among those that it dominates. -/
def roleAbove (p : Policydb) (upper lower : U32) : Bool :=
  match atValue p.roleValToStruct upper with
  | .ok (some role) => ebitmapGetBit role.dominates (lower - 1).toNat
  | _ => false

/-- The two levels that an attribute is about. -/
def attrLevels (scontext tcontext : Context) (attr : U32) : Option (MlsLevel × MlsLevel) :=
  if attr = cexprL1l2 then some (scontext.range.low, tcontext.range.low)
  else if attr = cexprL1h2 then some (scontext.range.low, tcontext.range.high)
  else if attr = cexprH1l2 then some (scontext.range.high, tcontext.range.low)
  else if attr = cexprH1h2 then some (scontext.range.high, tcontext.range.high)
  else if attr = cexprL1h1 then some (scontext.range.low, scontext.range.high)
  else if attr = cexprL2h2 then some (tcontext.range.low, tcontext.range.high)
  else none

/-- What a leaf about two contexts says. -/
def attrValue (p : Policydb) (scontext tcontext : Context) (e : ConstraintExpr) : Bool :=
  if e.attr = cexprUser then related e.op (scontext.user == tcontext.user) false false
  else if e.attr = cexprType then related e.op (scontext.type == tcontext.type) false false
  else if e.attr = cexprRole then
    related e.op (scontext.role == tcontext.role) (roleAbove p scontext.role tcontext.role)
      (roleAbove p tcontext.role scontext.role)
  else
    match attrLevels scontext tcontext e.attr with
    | some (l1, l2) => related e.op (mlsLevelEq l1 l2) (mlsLevelDom l1 l2) (mlsLevelDom l2 l1)
    | none => false

/-- The attribute and operator pairs of a leaf about two contexts that the evaluator handles. -/
def AttrHandled (e : ConstraintExpr) : Prop :=
  e.attr ∈ [cexprUser, cexprType] ∧ e.op ∈ [cexprEq, cexprNeq] ∨
    e.attr ∈ [cexprRole, cexprL1l2, cexprL1h2, cexprH1l2, cexprH1h2, cexprL1h1, cexprL2h2] ∧
      e.op ∈ [cexprEq, cexprNeq, cexprDom, cexprDomby, cexprIncomp]

instance (e : ConstraintExpr) : Decidable (AttrHandled e) := inferInstanceAs (Decidable (_ ∨ _))

/-- The context that a leaf with names is about. -/
def namesContext (scontext tcontext : Context) (xcontext : Option Context) (e : ConstraintExpr) :
    Option Context :=
  if e.attr &&& cexprTarget ≠ 0 then some tcontext
  else if e.attr &&& cexprXtarget ≠ 0 then xcontext
  else some scontext

/-- Its value there: the first of user, role and type whose bit is set. -/
def namesMember (c : Context) (e : ConstraintExpr) : U32 :=
  if e.attr &&& cexprUser ≠ 0 then c.user
  else if e.attr &&& cexprRole ≠ 0 then c.role
  else c.type

/-- What a leaf with names says. -/
def namesValue (scontext tcontext : Context) (xcontext : Option Context) (e : ConstraintExpr) :
    Bool :=
  match namesContext scontext tcontext xcontext e with
  | some c => related e.op (ebitmapGetBit e.names (namesMember c e - 1).toNat) false false
  | none => false

/-- The attribute bits and operators of a leaf with names that the evaluator handles. -/
def NamesHandled (e : ConstraintExpr) : Prop :=
  (e.attr &&& cexprUser ≠ 0 ∨ e.attr &&& cexprRole ≠ 0 ∨ e.attr &&& cexprType ≠ 0) ∧
    e.op ∈ [cexprEq, cexprNeq]

instance (e : ConstraintExpr) : Decidable (NamesHandled e) := inferInstanceAs (Decidable (_ ∧ _))

theorem cexprCompare_eq (val1 val2 : U32) : cexprCompare op val1 val2 =
    if op ∈ [cexprEq, cexprNeq] then .ok (related op (val1 == val2) false false)
    else .error .oops := by
  unfold cexprCompare related
  by_cases eq : op = cexprEq
  · simp [eq]
  by_cases neq : op = cexprNeq
  · simp [neq, cexprEq, cexprNeq, bne]
  · simp [eq, neq]

theorem cexprMls_eq (l1 l2 : MlsLevel) : cexprMls op l1 l2 =
    if op ∈ [cexprEq, cexprNeq, cexprDom, cexprDomby, cexprIncomp] then
      .ok (related op (mlsLevelEq l1 l2) (mlsLevelDom l1 l2) (mlsLevelDom l2 l1))
    else .error .oops := by
  unfold cexprMls related mlsLevelIncomp
  by_cases eq : op = cexprEq
  · simp [eq]
  by_cases neq : op = cexprNeq
  · simp [neq, cexprEq, cexprNeq]
  by_cases dom : op = cexprDom
  · simp [dom, cexprEq, cexprNeq, cexprDom]
  by_cases domby : op = cexprDomby
  · simp [domby, cexprEq, cexprNeq, cexprDom, cexprDomby]
  by_cases incomp : op = cexprIncomp
  · simp [incomp, cexprEq, cexprNeq, cexprDom, cexprDomby, cexprIncomp, Bool.and_comm]
  · simp [eq, neq, dom, domby, incomp]

theorem cexprRolesStep_eq {val1 val2 : U32} {r1 r2 : RoleDatum}
    (one : atValue p.roleValToStruct val1 = .ok (some r1))
    (other : atValue p.roleValToStruct val2 = .ok (some r2)) : cexprRolesStep p op val1 val2 =
    if op ∈ [cexprEq, cexprNeq, cexprDom, cexprDomby, cexprIncomp] then
      .ok (related op (val1 == val2) (roleAbove p val1 val2) (roleAbove p val2 val1))
    else .error .bug := by
  have above : roleAbove p val1 val2 = ebitmapGetBit r1.dominates (val2 - 1).toNat := by
    unfold roleAbove
    rw [one]
  have below : roleAbove p val2 val1 = ebitmapGetBit r2.dominates (val1 - 1).toNat := by
    unfold roleAbove
    rw [other]
  rw [above, below]
  unfold cexprRolesStep
  rw [cexprCompare_eq, cexprRoles, one, other]
  simp only [stopAs, bind, Except.bind, roleDominates, derefPtr, pure, Except.pure]
  unfold related
  by_cases eq : op = cexprEq
  · simp [eq, cexprEq, cexprDom, cexprDomby, cexprIncomp]
  by_cases neq : op = cexprNeq
  · simp [neq, cexprEq, cexprNeq, cexprDom, cexprDomby, cexprIncomp]
  by_cases dom : op = cexprDom
  · simp [dom, cexprEq, cexprNeq, cexprDom]
  by_cases domby : op = cexprDomby
  · simp [domby, cexprEq, cexprNeq, cexprDom, cexprDomby]
  by_cases incomp : op = cexprIncomp
  · subst incomp
    cases ebitmapGetBit r1.dominates (val2 - 1).toNat with
    | false => simp [cexprEq, cexprNeq, cexprDom, cexprDomby, cexprIncomp]
    | true => simp [cexprEq, cexprNeq, cexprDom, cexprDomby, cexprIncomp]
  · simp [eq, neq, dom, domby, incomp]

theorem attrLevels_isSome (attr : U32) : (attrLevels scontext tcontext attr).isSome = true ↔
    attr ∈ [cexprL1l2, cexprL1h2, cexprH1l2, cexprH1h2, cexprL1h1, cexprL2h2] := by
  unfold attrLevels
  grind

theorem cexprEvalAttr_levels (user : e.attr ≠ cexprUser) (type : e.attr ≠ cexprType)
    (role : e.attr ≠ cexprRole) : cexprEvalAttr p scontext tcontext e =
      match attrLevels scontext tcontext e.attr with
      | some (l1, l2) => cexprMls e.op l1 l2
      | none => .error .oops := by
  unfold cexprEvalAttr attrLevels
  rw [if_neg user, if_neg type, if_neg role]
  by_cases l1l2 : e.attr = cexprL1l2
  · rw [if_pos l1l2, if_pos l1l2]
  rw [if_neg l1l2, if_neg l1l2]
  by_cases l1h2 : e.attr = cexprL1h2
  · rw [if_pos l1h2, if_pos l1h2]
  rw [if_neg l1h2, if_neg l1h2]
  by_cases h1l2 : e.attr = cexprH1l2
  · rw [if_pos h1l2, if_pos h1l2]
  rw [if_neg h1l2, if_neg h1l2]
  by_cases h1h2 : e.attr = cexprH1h2
  · rw [if_pos h1h2, if_pos h1h2]
  rw [if_neg h1h2, if_neg h1h2]
  by_cases l1h1 : e.attr = cexprL1h1
  · rw [if_pos l1h1, if_pos l1h1]
  rw [if_neg l1h1, if_neg l1h1]
  by_cases l2h2 : e.attr = cexprL2h2
  · rw [if_pos l2h2, if_pos l2h2]
  rw [if_neg l2h2, if_neg l2h2]

theorem attrHandled_values (values : e.attr = cexprUser ∨ e.attr = cexprType) :
    AttrHandled e ↔ e.op ∈ [cexprEq, cexprNeq] := by
  unfold AttrHandled
  rcases values with is | is
  · simp [is, cexprUser, cexprType, cexprRole, cexprL1l2, cexprL1h2, cexprH1l2, cexprH1h2, cexprL1h1,
      cexprL2h2]
  · simp [is, cexprUser, cexprType, cexprRole, cexprL1l2, cexprL1h2, cexprH1l2, cexprH1h2, cexprL1h1,
      cexprL2h2]

theorem attrHandled_others (scontext tcontext : Context) (user : e.attr ≠ cexprUser) (type : e.attr ≠ cexprType) :
    AttrHandled e ↔ (e.attr = cexprRole ∨ (attrLevels scontext tcontext e.attr).isSome = true) ∧
      e.op ∈ [cexprEq, cexprNeq, cexprDom, cexprDomby, cexprIncomp] := by
  unfold AttrHandled
  rw [attrLevels_isSome]
  simp only [List.mem_cons, List.not_mem_nil, or_false, user, type, false_and, false_or]

/-- A leaf that is not about the roles of two contexts. -/
theorem cexprEvalAttrStep_other (role : e.attr ≠ cexprRole) :
    cexprEvalAttrStep p scontext tcontext e =
      if AttrHandled e then .ok (attrValue p scontext tcontext e) else .error .bug := by
  unfold cexprEvalAttrStep attrValue
  rw [if_neg role]
  by_cases user : e.attr = cexprUser
  · have plain : cexprEvalAttr p scontext tcontext e =
        cexprCompare e.op scontext.user tcontext.user := by
      unfold cexprEvalAttr
      rw [if_pos user]
    rw [if_pos user, plain, cexprCompare_eq]
    simp only [attrHandled_values (.inl user)]
    split
    · rfl
    · rfl
  by_cases type : e.attr = cexprType
  · have plain : cexprEvalAttr p scontext tcontext e =
        cexprCompare e.op scontext.type tcontext.type := by
      unfold cexprEvalAttr
      rw [if_neg user, if_pos type]
    rw [if_neg user, if_pos type, plain, cexprCompare_eq]
    simp only [attrHandled_values (.inr type)]
    split
    · rfl
    · rfl
  rw [if_neg user, if_neg type, if_neg role, cexprEvalAttr_levels user type role]
  simp only [attrHandled_others scontext tcontext user type]
  cases levels : attrLevels scontext tcontext e.attr with
  | none =>
    simp only [role, Option.isSome_none, Bool.false_eq_true, or_self, false_and, if_false]
    rfl
  | some pair =>
    obtain ⟨l1, l2⟩ := pair
    simp only [Option.isSome_some, or_true, true_and, cexprMls_eq]
    split
    · rfl
    · rfl

theorem attrHandled_role (role : e.attr = cexprRole) :
    AttrHandled e ↔ e.op ∈ [cexprEq, cexprNeq, cexprDom, cexprDomby, cexprIncomp] := by
  unfold AttrHandled
  simp [role, cexprUser, cexprType, cexprRole]

/-- A leaf about two contexts whose roles are there. -/
theorem cexprEvalAttrStep_eq {r1 r2 : RoleDatum}
    (one : atValue p.roleValToStruct scontext.role = .ok (some r1))
    (other : atValue p.roleValToStruct tcontext.role = .ok (some r2)) :
    cexprEvalAttrStep p scontext tcontext e =
      if AttrHandled e then .ok (attrValue p scontext tcontext e) else .error .bug := by
  by_cases role : e.attr = cexprRole
  · have user : e.attr ≠ cexprUser := by
      rw [role]
      decide
    have type : e.attr ≠ cexprType := by
      rw [role]
      decide
    have value : attrValue p scontext tcontext e =
        related e.op (scontext.role == tcontext.role) (roleAbove p scontext.role tcontext.role)
          (roleAbove p tcontext.role scontext.role) := by
      unfold attrValue
      rw [if_neg user, if_neg type, if_pos role]
    unfold cexprEvalAttrStep
    rw [if_pos role, cexprRolesStep_eq one other, value]
    exact if_congr (attrHandled_role role).symm rfl rfl
  · exact cexprEvalAttrStep_other role

/-- A leaf that is handled is no `BUG()`, whatever roles the contexts have. -/
theorem cexprEvalAttrStep_handled (p : Policydb) (scontext tcontext : Context) (handled : AttrHandled e) :
    (∃ v, cexprEvalAttrStep p scontext tcontext e = .ok v) ∨
      cexprEvalAttrStep p scontext tcontext e = .error .fault := by
  by_cases role : e.attr = cexprRole
  · have op := (attrHandled_role role).mp handled
    unfold cexprEvalAttrStep cexprRolesStep
    rw [if_pos role]
    cases one : atValue p.roleValToStruct scontext.role with
    | error f => exact .inr rfl
    | ok r1 =>
      cases other : atValue p.roleValToStruct tcontext.role with
      | error f => exact .inr rfl
      | ok r2 =>
        simp only [stopAs, bind, Except.bind]
        split
        · cases cexprRoles p e.op scontext.role tcontext.role with
          | ok v => exact .inl ⟨v, rfl⟩
          | error f => exact .inr rfl
        · rename_i plain
          have value : e.op ∈ [cexprEq, cexprNeq] := by
            simp only [List.mem_cons, List.not_mem_nil, or_false] at op ⊢
            tauto
          rw [cexprCompare_eq, if_pos value]
          exact .inl ⟨_, rfl⟩
  · rw [cexprEvalAttrStep_other role, if_pos handled]
    exact .inl ⟨_, rfl⟩

/-- The value of a context that a leaf with names looks for. -/
theorem namesMember_eq (c : Context) {found : U32 → Except Fault Bool} :
    (if e.attr &&& cexprUser ≠ 0 then found c.user
      else if e.attr &&& cexprRole ≠ 0 then found c.role
      else if e.attr &&& cexprType ≠ 0 then found c.type
      else .error .oops) =
      if e.attr &&& cexprUser ≠ 0 ∨ e.attr &&& cexprRole ≠ 0 ∨ e.attr &&& cexprType ≠ 0 then
        found (namesMember c e)
      else .error .oops := by
  unfold namesMember
  by_cases user : e.attr &&& cexprUser ≠ 0
  · rw [if_pos user, if_pos (.inl user), if_pos user]
  rw [if_neg user, if_neg user]
  by_cases role : e.attr &&& cexprRole ≠ 0
  · rw [if_pos role, if_pos (.inr (.inl role)), if_pos role]
  rw [if_neg role, if_neg role]
  by_cases type : e.attr &&& cexprType ≠ 0
  · rw [if_pos type, if_pos (.inr (.inr type))]
  · rw [if_neg type, if_neg (by simp only [user, role, type, or_self, not_false_eq_true])]

theorem namesFound_eq (value : U32) :
    (if e.op = cexprEq then .ok (ebitmapGetBit e.names (value - 1).toNat)
      else if e.op = cexprNeq then .ok (!ebitmapGetBit e.names (value - 1).toNat)
      else .error .oops : Except Fault Bool) =
      if e.op ∈ [cexprEq, cexprNeq] then
        .ok (related e.op (ebitmapGetBit e.names (value - 1).toNat) false false)
      else .error .oops := by
  unfold related
  by_cases eq : e.op = cexprEq
  · simp [eq]
  by_cases neq : e.op = cexprNeq
  · simp [neq, cexprEq, cexprNeq]
  · simp [eq, neq]

/-- A leaf with names, where the context it is about is given. -/
theorem cexprEvalNames_eq (third : e.attr &&& cexprXtarget ≠ 0 → xcontext.isSome) :
    cexprEvalNames scontext tcontext xcontext e =
      if NamesHandled e then .ok (namesValue scontext tcontext xcontext e) else .error .oops := by
  unfold cexprEvalNames namesValue namesContext NamesHandled
  simp only [bind, Except.bind, pure, Except.pure]
  have found : ∀ c : Context, _ = _ := fun c =>
    @namesMember_eq e c fun value =>
      if e.op = cexprEq then .ok (ebitmapGetBit e.names (value - 1).toNat)
      else if e.op = cexprNeq then .ok (!ebitmapGetBit e.names (value - 1).toNat)
      else .error .oops
  by_cases target : e.attr &&& cexprTarget ≠ 0
  · rw [if_pos target, if_pos target]
    dsimp only
    rw [found tcontext, namesFound_eq, ← ite_and]
    exact if_congr Iff.rfl rfl rfl
  rw [if_neg target, if_neg target]
  by_cases xtarget : e.attr &&& cexprXtarget ≠ 0
  · obtain ⟨c, given⟩ := Option.isSome_iff_exists.mp (third xtarget)
    rw [if_pos xtarget, if_pos xtarget, given]
    dsimp only [derefPtr]
    rw [found c, namesFound_eq, ← ite_and]
    exact if_congr Iff.rfl rfl rfl
  · rw [if_neg xtarget, if_neg xtarget]
    dsimp only
    rw [found scontext, namesFound_eq, ← ite_and]
    exact if_congr Iff.rfl rfl rfl

end Leaves

end Ksrc.Guarantees.ConstraintStops

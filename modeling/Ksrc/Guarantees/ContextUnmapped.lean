import Ksrc.Guarantees.ContextRoundTrip

/-!
# Contexts kept as strings over policy loads

Source: `security/selinux/ss/services.c` (`services_convert_context`,
`string_to_context_struct`).
-/
namespace Ksrc.Guarantees.ContextUnmapped

open Library Source EbitmapBits ContextRoundTrip

section Faults

variable {α β : Type} {x : Except Fault α}

/-- No error number is returned. -/
def Quiet (x : Except Fault α) : Prop := ∀ e, x ≠ .error (.err e)

/-- `-EINVAL` is the only error number. -/
def OnlyEinval (x : Except Fault α) : Prop := ∀ e, x = .error (.err e) → e = .EINVAL

theorem quiet_ok (a : α) : Quiet (.ok a) := nofun

theorem quiet_oops : Quiet (.error .oops : Except Fault α) := nofun

theorem quiet_bind {f : α → Except Fault β} (quiet : Quiet x) (later : ∀ a, Quiet (f a)) :
    Quiet (x >>= f) := by
  cases x with
  | error fault =>
    intro e same
    cases same
    exact quiet e rfl
  | ok a => exact later a

theorem Quiet.onlyEinval (quiet : Quiet x) : OnlyEinval x := fun e same => absurd same (quiet e)

theorem onlyEinval_ok (a : α) : OnlyEinval (.ok a) := (quiet_ok a).onlyEinval

theorem onlyEinval_einval : OnlyEinval (.error einval : Except Fault α) := by
  intro e same
  cases same
  rfl

theorem quiet_atValue (array : List α) (value : U32) : Quiet (atValue array value) := by
  unfold atValue
  cases array[(value - 1).toNat]? with
  | none => exact quiet_oops
  | some a => exact quiet_ok a

theorem quiet_derefPtr (entry : Option α) : Quiet (derefPtr entry) := by
  cases entry with
  | none => exact quiet_oops
  | some a => exact quiet_ok a

end Faults

section Checks

variable {p : Policydb} {c : Context}

theorem quiet_level (l : MlsLevel) : Quiet (mlsLevelIsvalid p l) := by
  unfold mlsLevelIsvalid
  by_cases sens : l.sens = 0 ∨ p.pLevels.nprim < l.sens
  · rw [if_pos sens]
    exact quiet_ok false
  · rw [if_neg sens]
    refine quiet_bind (quiet_atValue _ _) fun entry => quiet_bind (quiet_derefPtr entry) fun name => ?_
    cases symtabSearch p.pLevels name with
    | none => exact quiet_ok false
    | some levdatum => exact quiet_ok _

theorem quiet_mls : Quiet (mlsContextIsvalid p c) := by
  unfold mlsContextIsvalid
  by_cases mls : ¬ p.mlsEnabled = true
  · rw [if_pos mls]
    exact quiet_ok true
  rw [if_neg mls]
  have range : Quiet (mlsRangeIsvalid p c.range) := by
    unfold mlsRangeIsvalid
    refine quiet_bind (quiet_level _) fun low => ?_
    cases low with
    | false => exact quiet_ok false
    | true =>
      refine quiet_bind (quiet_level _) fun high => ?_
      cases high with
      | false => exact quiet_ok false
      | true => exact quiet_ok _
  refine quiet_bind range fun ok => ?_
  cases ok with
  | false => exact quiet_ok false
  | true =>
    by_cases objectR : c.role = objectRVal
    · simp only [if_pos objectR]
      exact quiet_ok true
    by_cases user : c.user = 0 ∨ p.pUsers.nprim < c.user
    · simp only [if_neg objectR, if_pos user]
      exact quiet_ok false
    · simp only [if_neg objectR, if_neg user]
      exact quiet_bind (quiet_atValue _ _) fun entry =>
        quiet_bind (quiet_derefPtr entry) fun usrdatum => quiet_ok _

theorem quiet_valid : Quiet (policydbContextIsvalid p c) := by
  unfold policydbContextIsvalid
  by_cases role : c.role = 0 ∨ p.pRoles.nprim < c.role
  · rw [if_pos role]
    exact quiet_ok false
  by_cases user : c.user = 0 ∨ p.pUsers.nprim < c.user
  · rw [if_neg role, if_pos user]
    exact quiet_ok false
  by_cases type : c.type = 0 ∨ p.pTypes.nprim < c.type
  · rw [if_neg role, if_neg user, if_pos type]
    exact quiet_ok false
  rw [if_neg role, if_neg user, if_neg type]
  by_cases objectR : c.role ≠ objectRVal
  · rw [if_pos objectR]
    refine quiet_bind (quiet_atValue _ _) fun entry => ?_
    cases entry with
    | none => exact quiet_ok false
    | some roledatum =>
      by_cases inRole : ebitmapGetBit roledatum.types (c.type - 1).toNat
      · simp only [if_pos inRole]
        refine quiet_bind (quiet_atValue _ _) fun entry => ?_
        cases entry with
        | none => exact quiet_ok false
        | some usrdatum =>
          by_cases inUser : ebitmapGetBit usrdatum.roles (c.role - 1).toNat
          · simp only [if_pos inUser]
            exact quiet_mls
          · simp only [if_neg inUser]
            exact quiet_ok false
      · simp only [if_neg inRole]
        exact quiet_ok false
  · rw [if_neg objectR]
    exact quiet_mls

end Checks

section Parser

variable {p : Policydb}

theorem onlyEinval_cat (curCat : List U8) (cat : Ebitmap) :
    OnlyEinval (mlsContextToSidCat p curCat cat).1 := by
  unfold mlsContextToSidCat
  cases cut 0 dot curCat with
  | none =>
    dsimp only
    cases symtabSearch p.pCats (cString curCat) with
    | none => exact onlyEinval_einval
    | some catdatum => exact onlyEinval_ok _
  | some parts =>
    dsimp only [terminate]
    cases symtabSearch p.pCats parts.1 with
    | none => exact onlyEinval_einval
    | some catdatum =>
      dsimp only
      cases symtabSearch p.pCats (cString parts.2) with
      | none => exact onlyEinval_einval
      | some rngdatum =>
        dsimp only
        by_cases order : rngdatum.value ≤ catdatum.value
        · rw [if_pos order]
          exact onlyEinval_einval
        · rw [if_neg order]
          exact onlyEinval_ok _

theorem onlyEinval_cats (turns : Nat) (nextCat : List U8) (cat : Ebitmap) :
    OnlyEinval (mlsContextToSidCats p turns nextCat cat).1 := by
  induction turns generalizing nextCat cat with
  | zero => exact onlyEinval_einval
  | succ turns ih =>
    rw [mlsContextToSidCats]
    cases cut 0 comma nextCat with
    | none => exact onlyEinval_cat nextCat cat
    | some parts =>
      have field := onlyEinval_cat (p := p) parts.1 cat
      dsimp only
      generalize mlsContextToSidCat p parts.1 cat = done at field ⊢
      obtain ⟨result, buffer⟩ := done
      cases result with
      | error e => exact field
      | ok cat' => exact ih parts.2 cat'

theorem onlyEinval_level (sensitivity : List U8) :
    OnlyEinval (mlsContextToSidLevel p sensitivity).1 := by
  unfold mlsContextToSidLevel
  cases cut 0 colon sensitivity with
  | none =>
    dsimp only
    cases symtabSearch p.pLevels (cString sensitivity) with
    | none => exact onlyEinval_einval
    | some levdatum => exact onlyEinval_ok _
  | some parts =>
    dsimp only [terminate]
    cases symtabSearch p.pLevels parts.1 with
    | none => exact onlyEinval_einval
    | some levdatum =>
      have cats := onlyEinval_cats (p := p) (parts.2.length + 1) parts.2 ebitmapInit
      dsimp only
      generalize mlsContextToSidCats p (parts.2.length + 1) parts.2 ebitmapInit = done at cats ⊢
      obtain ⟨result, buffer⟩ := done
      cases result with
      | error e =>
        intro e' same
        cases same
        exact cats e' rfl
      | ok cat => exact onlyEinval_ok _

theorem onlyEinval_mls (oldc : U8) (scontext : List U8) (context : Context) (s : Option Sidtab)
    (defSid : U32) : OnlyEinval (mlsContextToSid p oldc scontext context s defSid).1 := by
  unfold mlsContextToSid
  by_cases mls : ¬ p.mlsEnabled = true
  · rw [if_pos mls]
    by_cases excess : oldc ≠ 0 ∧ defSid = secsidNull
    · rw [if_pos excess]
      exact onlyEinval_einval
    · rw [if_neg excess]
      exact onlyEinval_ok context
  rw [if_neg mls]
  by_cases absent : oldc = 0
  · rw [if_pos absent]
    by_cases null : defSid = secsidNull
    · rw [if_pos null]
      exact onlyEinval_einval
    rw [if_neg null]
    cases s with
    | none => exact quiet_oops.onlyEinval
    | some s =>
      dsimp only
      unfold sidtabSearch
      cases sidtabSearchEntry s defSid with
      | none => exact quiet_oops.onlyEinval
      | some entry =>
        cases entry with
        | none => exact onlyEinval_einval
        | some entry => exact onlyEinval_ok _
  rw [if_neg absent]
  cases cut 0 dash scontext with
  | none =>
    have level := onlyEinval_level (p := p) scontext
    dsimp only
    generalize mlsContextToSidLevel p scontext = done at level ⊢
    obtain ⟨result, buffer⟩ := done
    cases result with
    | error e =>
      intro e' same
      cases same
      exact level e' rfl
    | ok level => exact onlyEinval_ok _
  | some parts =>
    have low := onlyEinval_level (p := p) parts.1
    have high := onlyEinval_level (p := p) parts.2
    dsimp only
    generalize mlsContextToSidLevel p parts.1 = done at low ⊢
    generalize mlsContextToSidLevel p parts.2 = done' at high ⊢
    obtain ⟨result, buffer⟩ := done
    obtain ⟨result', buffer'⟩ := done'
    cases result with
    | error e =>
      intro e' same
      cases same
      exact low e' rfl
    | ok level =>
      cases result' with
      | error e =>
        intro e' same
        cases same
        exact high e' rfl
      | ok level' => exact onlyEinval_ok _

theorem onlyEinval_type (sidtabp : Option Sidtab) (ctx : Context) (defSid : U32) (type : Name)
    (oldc : U8) (rest : List U8) :
    OnlyEinval (stringToContextType p sidtabp ctx defSid type oldc rest).1 := by
  unfold stringToContextType
  cases symtabSearch p.pTypes type with
  | none => exact onlyEinval_einval
  | some typdatum =>
    dsimp only
    by_cases isAttribute : typdatum.isAttribute ≠ 0
    · rw [if_pos isAttribute]
      exact onlyEinval_einval
    rw [if_neg isAttribute]
    have mls := onlyEinval_mls (p := p) oldc rest { ctx with type := typdatum.value } sidtabp defSid
    generalize mlsContextToSid p oldc rest { ctx with type := typdatum.value } sidtabp defSid = done
      at mls ⊢
    obtain ⟨result, buffer⟩ := done
    cases result with
    | error e => exact mls
    | ok ctx' =>
      have valid := quiet_valid (p := p) (c := ctx')
      dsimp only
      generalize policydbContextIsvalid p ctx' = checked at valid ⊢
      cases checked with
      | error e =>
        intro e' same
        cases same
        exact absurd rfl (valid e')
      | ok accepted =>
        cases accepted with
        | false => exact onlyEinval_einval
        | true => exact onlyEinval_ok ctx'

/-- `string_to_context_struct` returns `-EINVAL` or succeeds. -/
theorem onlyEinval_struct (sidtabp : Option Sidtab) (scontext : List U8) (defSid : U32) :
    OnlyEinval (stringToContextStruct p sidtabp scontext defSid).1 := by
  unfold stringToContextStruct
  cases cut 0 colon scontext with
  | none => exact onlyEinval_einval
  | some parts =>
    dsimp only [terminate]
    cases symtabSearch p.pUsers parts.1 with
    | none => exact onlyEinval_einval
    | some usrdatum =>
      dsimp only
      cases cut 0 colon parts.2 with
      | none => exact onlyEinval_einval
      | some parts' =>
        dsimp only
        cases symtabSearch p.pRoles parts'.1 with
        | none => exact onlyEinval_einval
        | some roledatum =>
          dsimp only
          cases cut 0 colon parts'.2 with
          | none => exact onlyEinval_type _ _ _ _ _ _
          | some parts'' => exact onlyEinval_type _ _ _ _ _ _

end Parser

section Conversions

variable {P1 P2 P3 : Policydb} {c : Context}

/-- `services_convert_context` finds no valid context under `newp` for a mapped context. -/
def NoCounterpart (oldp newp : Policydb) (c : Context) : Prop :=
  (∃ e, convertFields oldp newp c = .error (.err e)) ∨
    ∃ newc, convertFields oldp newp c = .ok newc ∧ policydbContextIsvalid newp newc = .ok false

/-- A context that is kept as its string. -/
def unmapped (s : List U8) : Context := { contextInit with str := some s }

/-- Enforcing, such a context becomes its string under the old policy. -/
theorem converted_to_string (mapped : c.str = none) (refused : NoCounterpart P1 P2 c) :
    servicesConvertContext P1 P2 true c =
      (contextStructToString P1 c).map fun printed => unmapped printed.1 := by
  have bad : ∃ e, convertMapped P1 P2 true c = .error (.err e) := by
    unfold convertMapped
    rcases refused with ⟨e, fields⟩ | ⟨newc, fields, invalid⟩
    · rw [fields]
      exact ⟨e, rfl⟩
    · rw [fields]
      change ∃ e, (policydbContextIsvalid P2 newc >>= _) = _
      rw [invalid]
      exact ⟨_, rfl⟩
  obtain ⟨e, bad⟩ := bad
  unfold servicesConvertContext
  rw [mapped]
  dsimp only
  rw [bad]
  dsimp only
  cases contextStructToString P1 c with
  | error fault => rfl
  | ok printed => rfl

/-- An unmapped context becomes the context its string is read as, or stays as it is. -/
theorem converted_onward (enforcing : Bool) (s : List U8) :
    servicesConvertContext P2 P3 enforcing (unmapped s) =
      match (stringToContextStruct P3 none s secsidNull).1 with
      | .ok accepted => .ok accepted
      | .error .oops => .error .oops
      | .error (.err _) => .ok (unmapped s) := by
  have only := onlyEinval_struct (p := P3) none s secsidNull
  have kept : (unmapped s).str = some s := rfl
  unfold servicesConvertContext
  rw [kept]
  dsimp only
  cases result : (stringToContextStruct P3 none s secsidNull).1 with
  | ok accepted => rfl
  | error fault =>
    cases fault with
    | oops => rfl
    | err e =>
      cases only e result
      rfl

end Conversions

section SmallPolicies

theorem emptyPolicy_refuses {p : Policydb} {c : Context} {s : Name}
    (hasUser : symName p.symValToName.users c.user = .ok s) : NoCounterpart p policydbInit c := by
  refine .inl ⟨.EINVAL, ?_⟩
  unfold convertFields
  rw [hasUser]
  rfl

/-- A context converted to another policy and back. -/
def Restores (P1 P2 : Policydb) (c : Context) : Prop :=
  ∃ d e, servicesConvertContext P1 P2 true c = .ok d ∧ servicesConvertContext P2 P1 true d = .ok e ∧
    SameFields c e

end SmallPolicies

end Ksrc.Guarantees.ContextUnmapped

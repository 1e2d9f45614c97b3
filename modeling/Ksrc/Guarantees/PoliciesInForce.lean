import Ksrc.Guarantees.PolicydbShape
import Ksrc.Source.Booleans

/-!
# The policies that come into force

Source: `security/selinux/ss/services.c` (`security_load_policy`, `security_set_bools`,
`security_preserve_bools`), `conditional.c` (`cond_policydb_dup`, `evaluate_cond_nodes`).

A policy is loaded from an image, keeps the booleans of the policy before it, and is replaced by a
duplicate whose booleans differ. Only the booleans and the conditional rules ever change.
-/
namespace Ksrc.Guarantees.PoliciesInForce

open Source AvtabEnumeration PolicydbShape

/-- The policies that some run of loads and boolean changes puts in force. -/
inductive InForce : Policydb → Prop
  | loaded {p : Policydb} {bytes rest : List U8} :
    policydbRead bytes = .ok (p, rest) → InForce p
  | reloaded {old p p' : Policydb} {bytes rest : List U8} : InForce old →
    policydbRead bytes = .ok (p, rest) → securityPreserveBools old p = .ok p' → InForce p'
  | switched {p p' : Policydb} {values : List U32} : InForce p →
    securitySetBools p values = .ok p' → InForce p'

/-- A policy that differs in its booleans and conditional rules only. -/
def SameRules (p p' : Policydb) : Prop :=
  p' = { p with
    pBools := p'.pBools, boolValToStruct := p'.boolValToStruct, teCondAvtab := p'.teCondAvtab
    condList := p'.condList }

section Rules

variable {h h' : Avtab} {on : Bool} {addr : Nat}

/-- What `avtabSetEnabled` makes of one node. -/
def switchNode (on : Bool) (addr : Nat) (n : AvtabNode) : AvtabNode :=
  if n.addr = addr then
    { n with key := { n.key with
      specified := if on then n.key.specified ||| avtabEnabled
        else n.key.specified &&& ~~~avtabEnabled } }
  else n

theorem avtabSetEnabled_eq (h : Avtab) :
    avtabSetEnabled on h addr = { h with htable := h.htable.map (·.map (switchNode on addr)) } :=
  rfl

theorem switchNode_code (n : AvtabNode) : keyCode (switchNode on addr n).key = keyCode n.key := by
  unfold switchNode
  split
  · rfl
  · rfl

theorem avtabSetEnabled_slot (k : AvtabKey) :
    avtabSlot (avtabSetEnabled on h addr) k = avtabSlot h k := by
  simp only [avtabSlot, Avtab.nslot, avtabSetEnabled_eq, List.length_map]

theorem avtabSetEnabled_chain (i : Nat) :
    (avtabSetEnabled on h addr).htable.getD i [] = (h.htable.getD i []).map (switchNode on addr) := by
  rw [avtabSetEnabled_eq, List.getD_eq_getElem?_getD, List.getD_eq_getElem?_getD, List.getElem?_map]
  cases h.htable[i]? with
  | none => rfl
  | some chain => rfl

/-- Switching a rule moves no node. -/
theorem avtabSetEnabled_ok (ok : AvtabOk h) : AvtabOk (avtabSetEnabled on h addr) := by
  constructor
  · intro i n member
    rw [avtabSetEnabled_chain] at member
    obtain ⟨n, old, rfl⟩ := List.mem_map.mp member
    rw [avtabSetEnabled_slot, avtabSlot_congr h (switchNode_code n)]
    exact ok.placed i n old
  · intro i
    rw [avtabSetEnabled_chain]
    unfold ChainSorted
    rw [List.pairwise_map]
    simp only [switchNode_code]
    exact ok.sorted i

theorem switchList_ok (ok : AvtabOk h) (list : List Nat) :
    AvtabOk (list.foldl (avtabSetEnabled on) h) := by
  induction list generalizing h with
  | nil => exact ok
  | cons addr list ih => exact ih (avtabSetEnabled_ok ok)

theorem evaluateCondNode_ok {p : Policydb} {node node' : CondNode} (ok : AvtabOk h)
    (evaluated : evaluateCondNode p h node = .ok (h', node')) : AvtabOk h' := by
  unfold evaluateCondNode at evaluated
  split at evaluated
  · cases evaluated
  · split at evaluated
    · cases evaluated
      exact ok
    · cases evaluated
      exact switchList_ok (switchList_ok ok _) _

theorem evaluateCondList_ok {p : Policydb} {nodes nodes' : List CondNode} (ok : AvtabOk h)
    (evaluated : evaluateCondList p nodes h = .ok (h', nodes')) : AvtabOk h' := by
  induction nodes generalizing h nodes' with
  | nil =>
    cases evaluated
    exact ok
  | cons node rest ih =>
    unfold evaluateCondList at evaluated
    split at evaluated
    · cases evaluated
    · rename_i first
      split at evaluated
      · cases evaluated
      · rename_i others
        cases evaluated
        exact ih (evaluateCondNode_ok ok first) others

theorem avtabAllocDup_ok (h : Avtab) : AvtabOk (avtabAllocDup h) := avtabOk_empty _ 0

theorem condDupAvList_ok {orig : Avtab} {addrs list : List Nat} (ok : AvtabOk h)
    (copied : condDupAvList orig addrs h = .ok (h', list)) : AvtabOk h' := by
  induction addrs generalizing h list with
  | nil =>
    cases copied
    exact ok
  | cons addr addrs ih =>
    unfold condDupAvList at copied
    split at copied
    · cases copied
    · split at copied
      · cases copied
      · rename_i inserted
        split at copied
        · cases copied
        · rename_i others
          cases copied
          exact ih (avtabInsertNonunique_ok ok inserted) others

theorem duplicateCondNode_ok {orig : Avtab} {node node' : CondNode} (ok : AvtabOk h)
    (copied : duplicateCondNode orig node h = .ok (h', node')) : AvtabOk h' := by
  unfold duplicateCondNode at copied
  split at copied
  · cases copied
  · rename_i whenTrue
    split at copied
    · cases copied
    · rename_i whenFalse
      cases copied
      exact condDupAvList_ok (condDupAvList_ok ok whenTrue) whenFalse

theorem duplicateCondNodes_ok {orig : Avtab} {nodes nodes' : List CondNode} (ok : AvtabOk h)
    (copied : duplicateCondNodes orig nodes h = .ok (h', nodes')) : AvtabOk h' := by
  induction nodes generalizing h nodes' with
  | nil =>
    cases copied
    exact ok
  | cons node rest ih =>
    unfold duplicateCondNodes at copied
    split at copied
    · cases copied
    · rename_i first
      split at copied
      · cases copied
      · rename_i others
        cases copied
        exact ih (duplicateCondNode_ok ok first) others

end Rules

section Policies

variable {p p' : Policydb}

theorem evaluateCondNodes_ok (ok : AvtabOk p.teCondAvtab) (evaluated : evaluateCondNodes p = .ok p') :
    SameRules p p' ∧ AvtabOk p'.teCondAvtab := by
  unfold evaluateCondNodes at evaluated
  split at evaluated
  · cases evaluated
  · rename_i done
    cases evaluated
    exact ⟨rfl, evaluateCondList_ok ok done⟩

theorem condPolicydbDup_ok (copied : condPolicydbDup p = .ok p') :
    SameRules p p' ∧ AvtabOk p'.teCondAvtab := by
  unfold condPolicydbDup duplicatePolicydbBools at copied
  dsimp only at copied
  split at copied
  · cases copied
  · rename_i bools
    split at bools
    · cases bools
    · cases bools
      unfold duplicatePolicydbCondList at copied
      split at copied
      · cases copied
      · rename_i lists
        cases copied
        exact ⟨rfl, duplicateCondNodes_ok (avtabAllocDup_ok _) lists⟩

theorem setBoolStates_ok {values : List U32} {i : Nat} (set : setBoolStates values i p = .ok p') :
    p' = { p with pBools := p'.pBools } := by
  induction values generalizing i p with
  | nil =>
    cases set
    rfl
  | cons value values ih =>
    unfold setBoolStates at set
    split at set
    · rw [ih set]
    · cases set

theorem SameRules.trans {p'' : Policydb} (first : SameRules p p') (second : SameRules p' p'') :
    SameRules p p'' := by
  unfold SameRules at first second ⊢
  rw [second, first]

theorem securitySetBools_ok {values : List U32} (set : securitySetBools p values = .ok p') :
    SameRules p p' ∧ AvtabOk p'.teCondAvtab := by
  unfold securitySetBools at set
  split at set
  · cases set
  · split at set
    · cases set
    · rename_i copy copied
      split at set
      · cases set
      · rename_i changed states
        obtain ⟨same, ok⟩ := condPolicydbDup_ok copied
        have frame := setBoolStates_ok states
        have table : changed.teCondAvtab = copy.teCondAvtab := by rw [frame]
        obtain ⟨evaluated, done⟩ := evaluateCondNodes_ok (by rw [table]; exact ok) set
        refine ⟨same.trans (SameRules.trans ?_ evaluated), done⟩
        unfold SameRules
        rw [frame]

theorem securityPreserveBools_ok {old : Policydb} (ok : AvtabOk p.teCondAvtab)
    (kept : securityPreserveBools old p = .ok p') : SameRules p p' ∧ AvtabOk p'.teCondAvtab := by
  unfold securityPreserveBools at kept
  split at kept
  · cases kept
  · rename_i states _
    obtain ⟨same, done⟩ := evaluateCondNodes_ok (by exact ok) kept
    refine ⟨SameRules.trans ?_ same, done⟩
    rfl

theorem shape_transfer (shape : PolicyShape p) (same : SameRules p p')
    (ok : AvtabOk p'.teCondAvtab) : PolicyShape p' := by
  unfold SameRules at same
  generalize p'.pBools = bools, p'.boolValToStruct = array, p'.condList = list at same
  generalize table : p'.teCondAvtab = condTable at same ok
  subst same
  constructor
  · exact shape.teAvtab
  · exact ok
  · exact shape.attrMaps
  · exact shape.types
  · exact shape.typeBounds
  · exact shape.processClass
  · exact shape.transPerms

/-- Every policy in force has the shape of an accepted one. -/
theorem InForce.shape (inForce : InForce p) : PolicyShape p := by
  induction inForce with
  | loaded read => exact policydbRead_shape read
  | reloaded _ read kept _ =>
    have shape := policydbRead_shape read
    obtain ⟨same, ok⟩ := securityPreserveBools_ok shape.teCondAvtab kept
    exact shape_transfer shape same ok
  | switched _ set shape =>
    obtain ⟨same, ok⟩ := securitySetBools_ok set
    exact shape_transfer shape same ok

end Policies

end Ksrc.Guarantees.PoliciesInForce

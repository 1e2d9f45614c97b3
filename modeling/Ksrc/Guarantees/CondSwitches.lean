import Ksrc.Guarantees.CondFiles
import Ksrc.Guarantees.PoliciesInForce
import Ksrc.Guarantees.PolicyImages

/-!
# Conditional rules that are switched and copied

Source: `security/selinux/ss/conditional.c` (`evaluate_cond_nodes`, `evaluate_cond_node`,
`cond_policydb_dup`, `duplicate_policydb_cond_list`, `cond_dup_av_list`), `services.c`
(`security_set_bools`, `security_preserve_bools`).

No test of an insertion looks at `AVTAB_ENABLED`. So the rules of a table that were switched, inserted
from the start, go where they are.
-/
namespace Ksrc.Guarantees.CondSwitches

open Library Source AvtabCalls AvtabEnumeration
open AvRuleSets CondFiles CondRuleItems
open PoliciesInForce PolicydbShape PolicyImages
open RuleFiles

/-- Keys that are the same but for `AVTAB_ENABLED`. -/
structure SwitchedKey (k k' : AvtabKey) : Prop where
  source : k'.sourceType = k.sourceType
  target : k'.targetType = k.targetType
  cls : k'.targetClass = k.targetClass
  specified : avtabSpecified k'.specified = avtabSpecified k.specified

structure SwitchedRule (r r' : Rule) : Prop where
  key : SwitchedKey r.1 r'.1
  datum : r'.2 = r.2

structure SwitchedNode (n n' : AvtabNode) : Prop where
  addr : n'.addr = n.addr
  key : SwitchedKey n.key n'.key
  datum : n'.datum = n.datum

/-- Tables whose nodes are in the same places. -/
structure SameTable (h h' : Avtab) : Prop where
  nel : h'.nel = h.nel
  chains : List.Forall₂ (List.Forall₂ SwitchedNode) h.htable h'.htable

section Keys

variable {k k' c c' : AvtabKey}

theorem SwitchedKey.refl (k : AvtabKey) : SwitchedKey k k := ⟨rfl, rfl, rfl, rfl⟩

theorem SwitchedKey.trans {k'' : AvtabKey} (first : SwitchedKey k k') (second : SwitchedKey k' k'') :
    SwitchedKey k k'' :=
  ⟨second.source.trans first.source, second.target.trans first.target, second.cls.trans first.cls,
    second.specified.trans first.specified⟩

theorem match_switched (key : SwitchedKey k k') (cur : SwitchedKey c c') :
    avtabMatch k' (avtabSpecified k'.specified) c' = avtabMatch k (avtabSpecified k.specified) c := by
  unfold avtabMatch
  rw [masked_and k'.specified c'.specified, masked_and k.specified c.specified, key.source, key.target,
    key.cls, key.specified, cur.source, cur.target, cur.cls, cur.specified]

theorem before_switched (key : SwitchedKey k k') (cur : SwitchedKey c c') :
    avtabBefore k' c' = avtabBefore k c := by
  unfold avtabBefore
  rw [key.source, key.target, key.cls, cur.source, cur.target, cur.cls]

theorem slot_switched {h h' : Avtab} (key : SwitchedKey k k') (slots : h'.nslot = h.nslot) :
    avtabSlot h' k' = avtabSlot h k := by
  unfold avtabSlot avtabHash
  rw [slots, key.source, key.target, key.cls]

/-- The flag is in none of the groups of specifiers. -/
theorem group_switched {m : U16} (apart : ~~~avtabEnabled &&& m = m)
    (same : avtabSpecified c'.specified = avtabSpecified c.specified) :
    c'.specified &&& m = c.specified &&& m := by
  have masked : ∀ x : U16, x &&& m = avtabSpecified x &&& m := by
    intro x
    unfold avtabSpecified
    rw [BitVec.and_assoc, apart]
  rw [masked, same, ← masked]

theorem specCount_switched (same : avtabSpecified c'.specified = avtabSpecified c.specified) :
    specCount c'.specified = specCount c.specified := by
  have apart : (specOrder.all fun spec => ~~~avtabEnabled &&& spec == spec) = true := by decide
  unfold specCount
  refine List.countP_congr fun spec member => ?_
  have flag : ~~~avtabEnabled &&& spec = spec := by
    have checked := List.all_eq_true.mp apart spec member
    exact beq_iff_eq.mp checked
  rw [group_switched flag same]

theorem ruleStored_switched {p : Policydb} {r r' : Rule} (same : SwitchedRule r r')
    (stored : RuleStored p r) : RuleStored p r' := by
  obtain ⟨valid, single, version, extended, plain, typed⟩ := stored
  have xperms := group_switched (m := avtabXperms) (by decide) same.key.specified
  have types := group_switched (m := avtabType) (by decide) same.key.specified
  refine ⟨?_, ?_, ?_, ?_, ?_, ?_⟩
  · rw [same.key.source, same.key.target, same.key.cls]
    exact valid
  · rw [specCount_switched same.key.specified]
    exact single
  · rw [xperms]
    exact version
  · rw [xperms, same.datum]
    exact extended
  · rw [xperms, same.datum]
    exact plain
  · rw [types, same.datum]
    exact typed

end Keys

section Tables

variable {te h h' t : Avtab} {k k' : AvtabKey} {r r' : Rule} {new new' : AvtabNode}
  {chain chain' : List AvtabNode}

theorem SwitchedNode.refl (n : AvtabNode) : SwitchedNode n n := ⟨rfl, SwitchedKey.refl _, rfl⟩

theorem SwitchedNode.trans {n n' n'' : AvtabNode} (first : SwitchedNode n n') (second : SwitchedNode n' n'') :
    SwitchedNode n n'' :=
  ⟨second.addr.trans first.addr, first.key.trans second.key, second.datum.trans first.datum⟩

theorem SameTable.refl (h : Avtab) : SameTable h h :=
  ⟨rfl, List.forall₂_same.mpr fun _ _ => List.forall₂_same.mpr fun n _ => SwitchedNode.refl n⟩

theorem SameTable.trans (first : SameTable h h') (second : SameTable h' t) : SameTable h t := by
  have nodes : ∀ {a b c : List AvtabNode}, List.Forall₂ SwitchedNode a b → List.Forall₂ SwitchedNode b c →
      List.Forall₂ SwitchedNode a c := by
    intro a b c left
    induction left generalizing c with
    | nil => exact fun right => right
    | cons one _ ih =>
      rintro (_ | ⟨other, rest⟩)
      exact .cons (one.trans other) (ih rest)
  have rows : ∀ {a b c : List (List AvtabNode)}, List.Forall₂ (List.Forall₂ SwitchedNode) a b →
      List.Forall₂ (List.Forall₂ SwitchedNode) b c → List.Forall₂ (List.Forall₂ SwitchedNode) a c := by
    intro a b c left
    induction left generalizing c with
    | nil => exact fun right => right
    | cons one _ ih =>
      rintro (_ | ⟨other, rest⟩)
      exact .cons (nodes one other) (ih rest)
  exact ⟨second.nel.trans first.nel, rows first.chains second.chains⟩

theorem SameTable.nslot (same : SameTable h h') : h'.nslot = h.nslot := same.chains.length_eq.symm

theorem SameTable.chainAt (same : SameTable h h') (i : Nat) :
    List.Forall₂ SwitchedNode (h.htable.getD i []) (h'.htable.getD i []) := by
  have length := same.chains.length_eq
  by_cases inside : i < h.htable.length
  · rw [List.getD_eq_getElem _ _ inside, List.getD_eq_getElem _ _ (length ▸ inside)]
    exact same.chains.get inside (length ▸ inside)
  · rw [List.getD_eq_default _ _ (by omega), List.getD_eq_default _ _ (by omega)]
    exact .nil

/-- The new node goes to the same place. -/
theorem chainInsert_switched (here : SwitchedNode new new') (same : List.Forall₂ SwitchedNode chain chain') :
    List.Forall₂ SwitchedNode
      (avtabChainInsertNonunique new (avtabSpecified new.key.specified) chain)
      (avtabChainInsertNonunique new' (avtabSpecified new'.key.specified) chain') := by
  induction same with
  | nil => exact .cons here .nil
  | cons first rest ih =>
    unfold avtabChainInsertNonunique
    rw [match_switched here.key first.key, before_switched here.key first.key]
    split
    · exact .cons here (.cons first rest)
    split
    · exact .cons here (.cons first rest)
    · exact .cons first ih

theorem insertNonunique_switched {addr : Nat} (same : SameTable h h') (key : SwitchedRule r r')
    (inserted : avtabInsertNonunique h r.1 r.2 = some (t, addr)) :
    ∃ t', avtabInsertNonunique h' r'.1 r'.2 = some (t', addr) ∧ SameTable t t' := by
  unfold avtabInsertNonunique at inserted ⊢
  rw [same.nslot, same.nel, slot_switched key.key same.nslot]
  split at inserted
  · cases inserted
  · rename_i room
    rw [if_neg room]
    simp only [Option.some.injEq, Prod.mk.injEq] at inserted
    obtain ⟨rfl, rfl⟩ := inserted
    refine ⟨_, rfl, rfl, ?_⟩
    have here : SwitchedNode { addr := h.nel, key := r.1, datum := r.2 }
        { addr := h.nel, key := r'.1, datum := r'.2 } := ⟨rfl, key.key, key.datum⟩
    have linked := chainInsert_switched here (same.chainAt (avtabSlot h r.1))
    rw [List.set_eq_take_append_cons_drop, List.set_eq_take_append_cons_drop, ← same.chains.length_eq]
    split
    · exact List.rel_append (List.forall₂_take _ same.chains) (.cons linked (List.forall₂_drop _ same.chains))
    · exact same.chains

/-- What a search finds, and the chain behind it. -/
def SameFound (found found' : Option (AvtabNode × List AvtabNode)) : Prop :=
  Option.Rel (fun a b => SwitchedNode a.1 b.1 ∧ List.Forall₂ SwitchedNode a.2 b.2) found found'

theorem chainSearch_switched (key : SwitchedKey k k') (same : List.Forall₂ SwitchedNode chain chain')
    {x x' : U16} (asked : ∀ c c', SwitchedKey c c' → avtabMatch k' x' c' = avtabMatch k x c) :
    SameFound (avtabChainSearch k x chain) (avtabChainSearch k' x' chain') := by
  induction same with
  | nil => exact .none
  | cons first rest ih =>
    unfold avtabChainSearch
    rw [asked _ _ first.key, before_switched key first.key]
    split
    · exact .some ⟨first, rest⟩
    split
    · exact .none
    · exact ih

theorem searchNode_switched (same : SameTable h h') (key : SwitchedKey k k') :
    SameFound (avtabSearchNode h k) (avtabSearchNode h' k') := by
  unfold avtabSearchNode
  rw [same.nslot, slot_switched key same.nslot]
  split
  · exact .none
  · exact chainSearch_switched key (same.chainAt _) fun _ _ cur => match_switched key cur

theorem SameFound.isSome {found found' : Option (AvtabNode × List AvtabNode)} (same : SameFound found found') :
    found'.isSome = found.isSome := by
  cases same with
  | none => rfl
  | some _ => rfl

/-- The checks of `cond_insertf` come to the same. -/
theorem check_switched {other : Option (List Nat)} (same : SameTable h h') (key : SwitchedKey k k') :
    condInsertfCheck te h' other k' = condInsertfCheck te h other k := by
  unfold condInsertfCheck
  rw [group_switched (m := avtabType) (by decide) key.specified,
    (searchNode_switched (SameTable.refl te) key).isSome]
  have found := searchNode_switched same key
  revert found
  generalize avtabSearchNode h k = before
  generalize avtabSearchNode h' k' = after
  intro found
  cases found with
  | none => rfl
  | @some a b pair =>
    obtain ⟨node, next⟩ := a
    obtain ⟨node', next'⟩ := b
    obtain ⟨first, rest⟩ := pair
    dsimp only at first rest ⊢
    have behind : (avtabSearchNodeNext node' next' k'.specified).isSome =
        (avtabSearchNodeNext node next k.specified).isSome := by
      unfold avtabSearchNodeNext
      refine (chainSearch_switched first.key rest fun c c' cur => ?_).isSome
      unfold avtabMatch
      rw [masked_and k'.specified c'.specified, masked_and k.specified c.specified, key.specified,
        cur.source, cur.target, cur.cls, cur.specified]
      rw [first.key.source, first.key.target, first.key.cls]
    cases other with
    | none => rfl
    | some list =>
      dsimp only
      rw [behind, first.addr]

end Tables

section Replays

variable {te h h' : Avtab} {other : Option (List Nat)} {conds conds' : List RawCond} {r r' : Rule}

/-- Conditionals whose rules are the same but for `AVTAB_ENABLED`. -/
structure SwitchedRaw (c c' : RawCond) : Prop where
  expr : c'.expr = c.expr
  trues : List.Forall₂ SwitchedRule c.trues c'.trues
  falses : List.Forall₂ SwitchedRule c.falses c'.falses

/-- Conditionals of a policy that differ in their state only. -/
structure SwitchedCond (node node' : CondNode) : Prop where
  expr : node'.expr = node.expr
  trueList : node'.trueList = node.trueList
  falseList : node'.falseList = node.falseList

theorem condStep_switched {st st' done : Avtab × List Nat} (same : SameTable st.1 st'.1)
    (lists : st'.2 = st.2) (key : SwitchedRule r r') (step : condStep te other st r = .ok done) :
    ∃ done', condStep te other st' r' = .ok done' ∧ SameTable done.1 done'.1 ∧ done'.2 = done.2 := by
  obtain ⟨checked, addr, inserted, appended⟩ := condStep_ok.mp step
  obtain ⟨t, inserted', same'⟩ := insertNonunique_switched same key inserted
  refine ⟨(t, done.2), condStep_ok.mpr ⟨?_, addr, inserted', ?_⟩, same', rfl⟩
  · rw [check_switched same key.key]
    exact checked
  · rw [lists]
    exact appended

theorem condSteps_switched {rules rules' : List Rule} {s t done : Avtab × List Nat}
    (keys : List.Forall₂ SwitchedRule rules rules') (same : SameTable s.1 t.1) (lists : t.2 = s.2)
    (folded : rules.foldlM (condStep te other) s = .ok done) :
    ∃ done', rules'.foldlM (condStep te other) t = .ok done' ∧ SameTable done.1 done'.1 ∧
      done'.2 = done.2 := by
  induction keys generalizing s t with
  | nil =>
    cases folded
    exact ⟨t, rfl, same, lists⟩
  | cons key _ ih =>
    rw [List.foldlM_cons, exceptBind_ok] at folded
    obtain ⟨mid, step, more⟩ := folded
    obtain ⟨mid', step', sameMid, listsMid⟩ := condStep_switched same lists key step
    obtain ⟨done', more', sameDone, listsDone⟩ := ih sameMid listsMid more
    exact ⟨done', by rw [List.foldlM_cons, exceptBind_ok]; exact ⟨mid', step', more'⟩, sameDone, listsDone⟩

theorem condNodeStep_switched {c c' : RawCond} {st st' done : Avtab × List CondNode}
    (raw : SwitchedRaw c c') (same : SameTable st.1 st'.1)
    (lists : List.Forall₂ SwitchedCond st.2 st'.2) (step : condNodeStep te st c = .ok done) :
    ∃ done', condNodeStep te st' c' = .ok done' ∧ SameTable done.1 done'.1 ∧
      List.Forall₂ SwitchedCond done.2 done'.2 ∧
        ∃ node, done'.2 = st'.2 ++ [node] ∧ node.curState = c'.curState := by
  unfold condNodeStep at step
  rw [exceptBind_ok] at step
  obtain ⟨whenTrue, trues, step⟩ := step
  rw [exceptBind_ok] at step
  obtain ⟨whenFalse, falses, made⟩ := step
  cases made
  obtain ⟨whenTrue', trues', sameTrue, trueList⟩ :=
    condSteps_switched (s := (st.1, [])) (t := (st'.1, [])) raw.trues same rfl trues
  rw [← trueList] at falses
  obtain ⟨whenFalse', falses', sameFalse, falseList⟩ :=
    condSteps_switched (s := (whenTrue.1, [])) (t := (whenTrue'.1, [])) raw.falses sameTrue rfl falses
  refine ⟨(whenFalse'.1, st'.2 ++ [{ curState := c'.curState, expr := c'.expr, trueList := whenTrue'.2
                                     falseList := whenFalse'.2 }]), ?_, sameFalse, ?_, _, rfl, rfl⟩
  · unfold condNodeStep
    rw [exceptBind_ok]
    refine ⟨whenTrue', trues', ?_⟩
    rw [exceptBind_ok]
    exact ⟨whenFalse', falses', rfl⟩
  · exact List.rel_append lists (.cons ⟨raw.expr, trueList, falseList⟩ .nil)

theorem condNodeSteps_switched {st st' done : Avtab × List CondNode}
    (raws : List.Forall₂ SwitchedRaw conds conds') (same : SameTable st.1 st'.1)
    (lists : List.Forall₂ SwitchedCond st.2 st'.2) (folded : conds.foldlM (condNodeStep te) st = .ok done) :
    ∃ done', conds'.foldlM (condNodeStep te) st' = .ok done' ∧ SameTable done.1 done'.1 ∧
      List.Forall₂ SwitchedCond done.2 done'.2 ∧
        ∃ nodes, done'.2 = st'.2 ++ nodes ∧
          List.Forall₂ (fun c node => node.curState = RawCond.curState c) conds' nodes := by
  induction raws generalizing st st' with
  | nil =>
    cases folded
    exact ⟨st', rfl, same, lists, [], (List.append_nil _).symm, .nil⟩
  | cons raw _ ih =>
    rw [List.foldlM_cons, exceptBind_ok] at folded
    obtain ⟨mid, step, more⟩ := folded
    obtain ⟨mid', step', sameMid, listsMid, node, last, state⟩ := condNodeStep_switched raw same lists step
    obtain ⟨done', more', sameDone, listsDone, nodes, others, states⟩ := ih sameMid listsMid more
    refine ⟨done', ?_, sameDone, listsDone, node :: nodes, ?_, .cons state states⟩
    · rw [List.foldlM_cons, exceptBind_ok]
      exact ⟨mid', step', more'⟩
    · rw [others, last, List.append_assoc]
      rfl

/-- A replay of switched rules goes the same way. -/
theorem replay_switched {table : Avtab} {list : List CondNode} (raws : List.Forall₂ SwitchedRaw conds conds')
    (replayed : replay te conds = .ok (table, list)) :
    ∃ table' list', replay te conds' = .ok (table', list') ∧ SameTable table table' ∧
      List.Forall₂ SwitchedCond list list' ∧
        List.Forall₂ (fun c node => node.curState = RawCond.curState c) conds' list' := by
  obtain ⟨⟨table', list'⟩, again, same, lists, nodes, whole, states⟩ :=
    condNodeSteps_switched raws (SameTable.refl _) .nil replayed
  rw [List.nil_append] at whole
  dsimp only at whole
  rw [← whole] at states
  exact ⟨table', list', again, same, lists, states⟩

end Replays

section Evaluation

variable {p : Policydb} {h h' : Avtab} {on : Bool} {addr : Nat}

theorem switchNode_switched (n : AvtabNode) : SwitchedNode n (switchNode on addr n) := by
  have masked : ∀ x : U16, avtabSpecified (x ||| avtabEnabled) = avtabSpecified x ∧
      avtabSpecified (x &&& ~~~avtabEnabled) = avtabSpecified x := by
    intro x
    have clears : avtabEnabled &&& ~~~avtabEnabled = 0#16 := by decide
    unfold avtabSpecified
    refine ⟨?_, ?_⟩
    · rw [BitVec.and_comm, BitVec.and_or_distrib_left, BitVec.and_comm _ avtabEnabled, clears,
        BitVec.or_zero, BitVec.and_comm]
    · rw [BitVec.and_assoc, BitVec.and_self]
  unfold switchNode
  split
  · refine ⟨rfl, ⟨rfl, rfl, rfl, ?_⟩, rfl⟩
    dsimp only
    split
    · exact (masked _).1
    · exact (masked _).2
  · exact SwitchedNode.refl n

theorem setEnabled_switched (h : Avtab) : SameTable h (avtabSetEnabled on h addr) := by
  refine ⟨rfl, ?_⟩
  rw [avtabSetEnabled_eq]
  refine List.forall₂_map_right_iff.mpr (List.forall₂_same.mpr fun chain _ => ?_)
  exact List.forall₂_map_right_iff.mpr (List.forall₂_same.mpr fun n _ => switchNode_switched n)

theorem switchList_switched (list : List Nat) (h : Avtab) :
    SameTable h (list.foldl (avtabSetEnabled on) h) := by
  induction list generalizing h with
  | nil => exact SameTable.refl h
  | cons addr list ih => exact (setEnabled_switched h).trans (ih _)

theorem evaluateCondNode_switched {node node' : CondNode}
    (evaluated : evaluateCondNode p h node = .ok (h', node')) :
    SameTable h h' ∧ SwitchedCond node node' := by
  unfold evaluateCondNode at evaluated
  split at evaluated
  · cases evaluated
  · split at evaluated
    · cases evaluated
      exact ⟨SameTable.refl _, rfl, rfl, rfl⟩
    · cases evaluated
      exact ⟨(switchList_switched _ _).trans (switchList_switched _ _), rfl, rfl, rfl⟩

theorem evaluateCondList_switched {nodes nodes' : List CondNode}
    (evaluated : evaluateCondList p nodes h = .ok (h', nodes')) :
    SameTable h h' ∧ List.Forall₂ SwitchedCond nodes nodes' := by
  induction nodes generalizing h nodes' with
  | nil =>
    cases evaluated
    exact ⟨SameTable.refl _, .nil⟩
  | cons node rest ih =>
    unfold evaluateCondList at evaluated
    split at evaluated
    · cases evaluated
    · rename_i first
      split at evaluated
      · cases evaluated
      · rename_i others
        cases evaluated
        obtain ⟨sameFirst, one⟩ := evaluateCondNode_switched first
        obtain ⟨sameRest, all⟩ := ih others
        exact ⟨sameFirst.trans sameRest, .cons one all⟩

end Evaluation

section Transfer

variable {p p' : Policydb} {conds : List RawCond} {log log' : List Rule} {h h' h'' : Avtab}

/-- The rules at the addresses of a list. -/
def rulesAt (h : Avtab) (list : List Nat) : List Rule := list.filterMap fun addr => (h.deref addr).map rule

/-- A conditional, with the rules its lists lead to. -/
def rawOf (h : Avtab) (node : CondNode) : RawCond :=
  { curState := node.curState, expr := node.expr, trues := rulesAt h node.trueList
    falses := rulesAt h node.falseList }

theorem SameTable.nodes (same : SameTable h h') : List.Forall₂ SwitchedNode h.nodes h'.nodes := by
  have rows : ∀ {a b : List (List AvtabNode)}, List.Forall₂ (List.Forall₂ SwitchedNode) a b →
      List.Forall₂ SwitchedNode a.flatten b.flatten := by
    intro a b all
    induction all with
    | nil => exact .nil
    | cons first _ ih => exact List.rel_append first ih
  exact rows same.chains

/-- The node at an address is there, switched. -/
theorem SameTable.deref (same : SameTable h h') (addr : Nat) :
    Option.Rel SwitchedNode (h.deref addr) (h'.deref addr) := by
  have search : ∀ {a b : List AvtabNode}, List.Forall₂ SwitchedNode a b →
      Option.Rel SwitchedNode (a.find? (·.addr == addr)) (b.find? (·.addr == addr)) := by
    intro a b all
    induction all with
    | nil => exact .none
    | cons first _ ih =>
      rw [List.find?_cons, List.find?_cons, first.addr]
      split
      · exact .some first
      · exact ih
  exact search same.nodes

/-- The rules at the addresses, in a switched table. -/
theorem rulesAt_switched {list : List Nat} {rules : List Rule} (holds : Holds h log) (same : SameTable h h')
    (listed : ListAt log list rules) : List.Forall₂ SwitchedRule rules (rulesAt h' list) := by
  induction listed with
  | nil => exact .nil
  | @cons addr r list rules found _ ih =>
    have there := same.deref addr
    rw [holds.deref found] at there
    unfold rulesAt at ih ⊢
    rw [List.filterMap_cons]
    generalize h'.deref addr = node at there
    cases there with
    | some switched => exact .cons ⟨switched.key, switched.datum⟩ ih

theorem rawOf_switched {c : RawCond} {node node' : CondNode} (holds : Holds h log) (same : SameTable h h')
    (stands : NodeAt log c node) (switched : SwitchedCond node node') : SwitchedRaw c (rawOf h' node') := by
  refine ⟨?_, ?_, ?_⟩
  · exact switched.expr.trans stands.expr
  · have rules := rulesAt_switched holds same stands.trues
    unfold rawOf
    rw [switched.trueList]
    exact rules
  · have rules := rulesAt_switched holds same stands.falses
    unfold rawOf
    rw [switched.falseList]
    exact rules

/-- Tables in the same places whose nodes are the rules of one log. -/
theorem sameTable_unique (same : SameTable h h') (same' : SameTable h h'')
    (rules : ∀ n ∈ h'.nodes, log[n.addr]? = some (rule n))
    (rules' : ∀ n ∈ h''.nodes, log[n.addr]? = some (rule n)) : h' = h'' := by
  have chains : ∀ {a b c : List AvtabNode}, List.Forall₂ SwitchedNode a b → List.Forall₂ SwitchedNode a c →
      (∀ n ∈ b, log[n.addr]? = some (rule n)) → (∀ n ∈ c, log[n.addr]? = some (rule n)) → b = c := by
    intro a b c left
    induction left generalizing c with
    | nil =>
      rintro (_ | _) - -
      rfl
    | @cons n m _ _ first _ ih =>
      rintro (_ | ⟨other, rest⟩) inB inC
      rename_i m' _
      have one := inB m List.mem_cons_self
      have two := inC m' List.mem_cons_self
      rw [first.addr] at one
      rw [other.addr, one, Option.some.injEq] at two
      have nodes : m = m' := by
        obtain ⟨addr, key, datum⟩ := m
        obtain ⟨addr', key', datum'⟩ := m'
        obtain rfl : addr' = addr := other.addr.trans first.addr.symm
        cases two
        rfl
      rw [nodes, ih rest (fun n member => inB n (List.mem_cons_of_mem _ member))
        fun n member => inC n (List.mem_cons_of_mem _ member)]
  have rows : ∀ {a b c : List (List AvtabNode)}, List.Forall₂ (List.Forall₂ SwitchedNode) a b →
      List.Forall₂ (List.Forall₂ SwitchedNode) a c → (∀ n ∈ b.flatten, log[n.addr]? = some (rule n)) →
      (∀ n ∈ c.flatten, log[n.addr]? = some (rule n)) → b = c := by
    intro a b c left
    induction left generalizing c with
    | nil =>
      rintro (_ | _) - -
      rfl
    | cons first _ ih =>
      rintro (_ | ⟨other, rest⟩) inB inC
      rw [chains first other (fun n member => inB n (List.mem_append_left _ member))
          fun n member => inC n (List.mem_append_left _ member),
        ih rest (fun n member => inB n (List.mem_append_right _ member))
          fun n member => inC n (List.mem_append_right _ member)]
  have nel := same.nel.trans same'.nel.symm
  have table := rows same.chains same'.chains rules rules'
  cases h'
  cases h''
  cases nel
  cases table
  rfl

/-- Every address of the log leads to its rule, in a switched table too. -/
theorem switched_deref (holds : Holds h log) (same : SameTable h h') :
    (∀ n ∈ h'.nodes, n.addr < log.length ∧ h'.deref n.addr = some n) ∧
      ∀ addr < log.length, (h'.deref addr).isSome = true := by
  have addrs : h'.nodes.map AvtabNode.addr = h.nodes.map AvtabNode.addr := by
    have nodes := same.nodes
    generalize h.nodes = a at nodes
    generalize h'.nodes = b at nodes
    induction nodes with
    | nil => rfl
    | cons first _ ih => rw [List.map_cons, List.map_cons, first.addr, ih]
  have perm := holds.logged.addrs
  rw [List.length_map, ← addrs] at perm
  have once : (h'.nodes.map AvtabNode.addr).Nodup := perm.nodup_iff.mpr List.nodup_range
  have there : ∀ addr < log.length, ∃ m ∈ h'.nodes, m.addr = addr ∧ h'.deref addr = some m := by
    intro addr inside
    have present := same.deref addr
    rw [holds.deref (List.getElem?_eq_getElem inside)] at present
    cases found : h'.deref addr with
    | none =>
      rw [found] at present
      cases present
    | some m =>
      have at' := List.find?_some found
      exact ⟨m, List.mem_of_find?_eq_some found, beq_iff_eq.mp at', rfl⟩
  refine ⟨fun n member => ?_, fun addr inside => ?_⟩
  · have inside : n.addr < log.length :=
      List.mem_range.mp (perm.mem_iff.mp (List.mem_map_of_mem member))
    obtain ⟨m, here, at', found⟩ := there n.addr inside
    rw [List.inj_on_of_nodup_map once here member at'] at found
    exact ⟨inside, found⟩
  · obtain ⟨m, -, -, found⟩ := there addr inside
    rw [found]
    rfl

theorem rulesAt_get {list : List Nat} (all : ∀ addr ∈ list, (h.deref addr).isSome = true) (i : Nat) :
    (rulesAt h list)[i]? = list[i]?.bind fun addr => (h.deref addr).map rule := by
  induction list generalizing i with
  | nil => rfl
  | cons addr list ih =>
    have later := ih fun addr member => all addr (List.mem_cons_of_mem _ member)
    unfold rulesAt at later ⊢
    obtain ⟨n, found⟩ := Option.isSome_iff_exists.mp (all addr List.mem_cons_self)
    rw [List.filterMap_cons, found, Option.map_some]
    dsimp only
    cases i with
    | zero =>
      rw [List.getElem?_cons_zero, List.getElem?_cons_zero, Option.bind_some, found]
      rfl
    | succ i =>
      rw [List.getElem?_cons_succ, List.getElem?_cons_succ]
      exact later i

theorem listed_switched {nodes nodes' : List CondNode} (lists : List.Forall₂ SwitchedCond nodes nodes') :
    listed nodes' = listed nodes := by
  unfold listed
  induction lists with
  | nil => rfl
  | cons first _ ih => rw [List.flatMap_cons, List.flatMap_cons, first.trueList, first.falseList, ih]

theorem allRules_rawOf (h : Avtab) (nodes : List CondNode) :
    allRules (nodes.map (rawOf h)) = rulesAt h (listed nodes) := by
  unfold allRules listed
  induction nodes with
  | nil => rfl
  | cons node nodes ih =>
    rw [List.map_cons, List.flatMap_cons, List.flatMap_cons, ih]
    unfold rawOf rulesAt
    rw [List.filterMap_append, List.filterMap_append]

theorem raws_switched {nodes nodes' : List CondNode} (holds : Holds h log) (same : SameTable h h')
    (stands : List.Forall₂ (NodeAt log) conds nodes) (lists : List.Forall₂ SwitchedCond nodes nodes') :
    List.Forall₂ SwitchedRaw conds (nodes'.map (rawOf h')) := by
  induction stands generalizing nodes' with
  | nil =>
    cases lists
    exact .nil
  | cons first _ ih =>
    cases lists with
    | cons one rest => exact .cons (rawOf_switched holds same first one) (ih rest)

theorem rules_switched_valid {rules rules' : List Rule} (same : List.Forall₂ SwitchedRule rules rules')
    (stored : ∀ r ∈ rules, RuleStored p r) : ∀ r ∈ rules', RuleStored p r := by
  induction same with
  | nil => exact stored
  | cons first _ ih =>
    intro r member
    rcases List.mem_cons.mp member with rfl | member
    · exact ruleStored_switched first (stored _ List.mem_cons_self)
    · exact ih (fun r here => stored r (List.mem_cons_of_mem _ here)) r member

theorem raws_switched_valid {conds' : List RawCond} (raws : List.Forall₂ SwitchedRaw conds conds')
    (valid : ∀ c ∈ conds, RawValid p c) : ∀ c ∈ conds', RawValid p c := by
  induction raws with
  | nil => exact valid
  | cons first _ ih =>
    intro c member
    rcases List.mem_cons.mp member with rfl | member
    · have before := valid _ List.mem_cons_self
      refine ⟨?_, rules_switched_valid first.trues before.trues, rules_switched_valid first.falses before.falses,
        ?_, ?_, ?_⟩
      · rw [first.expr]
        exact before.expr
      · rw [first.expr]
        exact before.exprFew
      · rw [← first.trues.length_eq]
        exact before.truesFew
      · rw [← first.falses.length_eq]
        exact before.falsesFew
    · exact ih (fun c here => valid c (List.mem_cons_of_mem _ here)) c member

theorem nodes_unique {nodes nodes' nodes'' : List CondNode} (lists : List.Forall₂ SwitchedCond nodes nodes')
    (lists' : List.Forall₂ SwitchedCond nodes nodes'')
    (states : List.Forall₂ (fun c node => node.curState = RawCond.curState c) (nodes''.map (rawOf h)) nodes') :
    nodes' = nodes'' := by
  induction lists generalizing nodes'' with
  | nil =>
    cases lists'
    rfl
  | @cons node node' _ _ first _ ih =>
    cases lists' with
    | @cons _ node'' _ _ other rest =>
      cases states with
      | cons state states =>
        have one : node' = node'' := by
          have expr := first.expr.trans other.expr.symm
          have trueList := first.trueList.trans other.trueList.symm
          have falseList := first.falseList.trans other.falseList.symm
          have curState : node'.curState = node''.curState := state
          cases node'
          cases node''
          cases expr
          cases trueList
          cases falseList
          cases curState
          rfl
        rw [one, ih rest states]

/-- A policy whose conditional rules are switched ones of another comes from conditionals as well. -/
theorem condsFrom_switched (from_conds : CondsFrom p conds) (checks : SameChecks p' p)
    (te : p'.teAvtab = p.teAvtab) (same : SameTable p.teCondAvtab p'.teCondAvtab)
    (lists : List.Forall₂ SwitchedCond p.condList p'.condList) :
    CondsFrom p' (p'.condList.map (rawOf p'.teCondAvtab)) := by
  obtain ⟨holds, stands, places⟩ := replay_log from_conds.replayed
  have raws := raws_switched holds same stands lists
  obtain ⟨there, all⟩ := switched_deref holds same
  obtain ⟨table, list, again, sameAgain, listsAgain, states⟩ := replay_switched raws from_conds.replayed
  have rules : allRules (p'.condList.map (rawOf p'.teCondAvtab)) =
      rulesAt p'.teCondAvtab (List.range (allRules conds).length) := by
    rw [allRules_rawOf, listed_switched lists, places]
  have held : ∀ n ∈ p'.teCondAvtab.nodes,
      (allRules (p'.condList.map (rawOf p'.teCondAvtab)))[n.addr]? = some (rule n) := by
    intro n member
    obtain ⟨inside, found⟩ := there n member
    rw [rules, rulesAt_get (fun addr here => all addr (List.mem_range.mp here)), List.getElem?_range inside,
      Option.bind_some, found]
    rfl
  obtain ⟨holdsAgain, -, -⟩ := replay_log again
  have tables := sameTable_unique sameAgain same holdsAgain.rules held
  have nodes := nodes_unique listsAgain lists states
  refine ⟨?_, ?_, ?_⟩
  · intro c member
    exact rawValid_same checks (raws_switched_valid raws from_conds.valid c member)
  · rw [← raws.length_eq]
    exact from_conds.few
  · rw [te, again, tables, nodes]

end Transfer

section Copies

variable {p p' : Policydb} {te orig h h' : Avtab} {other : Option (List Nat)} {log log' : List Rule}
  {conds : List RawCond}

theorem condStep_nslot {n : Nat} {st st' : Avtab × List Nat} {r : Rule} (slots : st.1.nslot = n)
    (step : condStep te other st r = .ok st') : st'.1.nslot = n := by
  obtain ⟨-, addr, inserted, -⟩ := condStep_ok.mp step
  rw [avtabInsertNonunique_nslot inserted]
  exact slots

theorem condNodeStep_nslot {n : Nat} {st st' : Avtab × List CondNode} {c : RawCond} (slots : st.1.nslot = n)
    (step : condNodeStep te st c = .ok st') : st'.1.nslot = n := by
  unfold condNodeStep at step
  rw [exceptBind_ok] at step
  obtain ⟨whenTrue, trues, step⟩ := step
  rw [exceptBind_ok] at step
  obtain ⟨whenFalse, falses, made⟩ := step
  cases made
  have mid : whenTrue.1.nslot = n :=
    foldlM_preserves (fun st => st.1.nslot = n) (fun _ _ _ slots once => condStep_nslot slots once) slots trues
  exact foldlM_preserves (fun st => st.1.nslot = n) (fun _ _ _ slots once => condStep_nslot slots once) mid falses

/-- The copy starts with a table of as many chains. -/
theorem allocDup_alloc {list : List CondNode} (replayed : replay te conds = .ok (h, list)) :
    avtabAllocDup h = avtabAlloc (BitVec.ofNat 32 te.nel) := by
  have slots : h.nslot = (avtabAlloc (BitVec.ofNat 32 te.nel)).nslot :=
    foldlM_preserves (fun st => st.1.nslot = (avtabAlloc (BitVec.ofNat 32 te.nel)).nslot)
      (fun _ _ _ slots once => condNodeStep_nslot slots once) rfl replayed
  unfold avtabAllocDup
  rw [slots]
  unfold avtabAlloc Avtab.nslot
  split
  · rfl
  · rw [List.length_replicate]

/-- A list is copied as it was read. -/
theorem dupList_same {list acc : List Nat} {rules : List Rule} (holds : Holds orig log) (here : Holds h log')
    (listed : ListAt log list rules)
    (folded : rules.foldlM (condStep te other) (h, acc) = .ok (h', acc ++ list)) :
    condDupAvList orig list h = .ok (h', list) := by
  induction listed generalizing h acc log' with
  | nil =>
    rw [List.append_nil, List.foldlM_nil] at folded
    cases folded
    rfl
  | @cons addr r list rules found _ ih =>
    rw [List.foldlM_cons, exceptBind_ok] at folded
    obtain ⟨mid, step, more⟩ := folded
    obtain ⟨-, new, inserted, appended⟩ := condStep_ok.mp step
    obtain ⟨-, holdsMid⟩ := holds_insert here inserted
    obtain ⟨-, lists⟩ := condSteps_log holdsMid more
    dsimp only at appended lists
    rw [appended, List.append_assoc] at lists
    have places := List.append_cancel_left lists
    rw [List.singleton_append, List.cons.injEq] at places
    obtain ⟨rfl, -⟩ := places
    have whole : acc ++ addr :: list = mid.2 ++ list := by
      rw [appended, List.append_assoc]
      rfl
    rw [whole] at more
    have later := ih holdsMid more
    unfold condDupAvList
    rw [holds.deref found]
    dsimp only at inserted ⊢
    rw [inserted]
    dsimp only
    rw [later]

theorem dupNode_same {c : RawCond} {node : CondNode} {st st' : Avtab × List CondNode}
    (holds : Holds orig log) (here : Holds st.1 log') (stands : NodeAt log c node)
    (last : st'.2 = st.2 ++ [node]) (step : condNodeStep te st c = .ok st') :
    duplicateCondNode orig node st.1 = .ok (st'.1, node) := by
  unfold condNodeStep at step
  rw [exceptBind_ok] at step
  obtain ⟨whenTrue, trues, step⟩ := step
  rw [exceptBind_ok] at step
  obtain ⟨whenFalse, falses, made⟩ := step
  cases made
  have same := List.append_cancel_left last
  cases same
  obtain ⟨h₁, trueList⟩ := whenTrue
  obtain ⟨h₂, falseList⟩ := whenFalse
  obtain ⟨holdsTrue, -⟩ := condSteps_log (s := (st.1, [])) here trues
  unfold duplicateCondNode
  dsimp only at trues falses holdsTrue stands ⊢
  rw [dupList_same holds here stands.trues trues]
  dsimp only
  rw [dupList_same holds holdsTrue stands.falses falses]

theorem dupNodes_same {full more : List Rule} {st st' : Avtab × List CondNode} (holds : Holds orig full)
    (here : Holds st.1 log) (part : full = log ++ allRules conds ++ more)
    (folded : conds.foldlM (condNodeStep te) st = .ok st') :
    ∃ nodes, st'.2 = st.2 ++ nodes ∧ duplicateCondNodes orig nodes st.1 = .ok (st'.1, nodes) := by
  induction conds generalizing log st with
  | nil =>
    cases folded
    exact ⟨[], (List.append_nil _).symm, rfl⟩
  | cons c conds ih =>
    rw [List.foldlM_cons, exceptBind_ok] at folded
    obtain ⟨mid, step, others⟩ := folded
    obtain ⟨holdsMid, node, lists, stands, -⟩ := condNodeStep_log here step
    have whole : full = log ++ (c.trues ++ c.falses) ++ allRules conds ++ more := by
      rw [part]
      simp only [allRules, List.flatMap_cons, List.append_assoc]
    obtain ⟨nodes, listsAll, copied⟩ := ih holdsMid whole others
    have standsFull : NodeAt full c node := by
      rw [whole, List.append_assoc]
      exact stands.more _
    refine ⟨node :: nodes, ?_, ?_⟩
    · rw [listsAll, lists, List.append_assoc]
      rfl
    · unfold duplicateCondNodes
      rw [dupNode_same holds here standsFull lists step]
      dsimp only
      rw [copied]

/-- The conditional rules are copied as they are. -/
theorem dup_conds (from_conds : CondsFrom p conds) (copied : condPolicydbDup p = .ok p') :
    CondsFrom p' conds := by
  obtain ⟨holds, -, -⟩ := replay_log from_conds.replayed
  have whole : allRules conds = [] ++ allRules conds ++ [] := by rw [List.nil_append, List.append_nil]
  obtain ⟨nodes, lists, same⟩ := dupNodes_same holds (holds_alloc (BitVec.ofNat 32 p.teAvtab.nel)) whole
    from_conds.replayed
  rw [List.nil_append] at lists
  dsimp only at lists same
  rw [← lists, ← allocDup_alloc from_conds.replayed] at same
  unfold condPolicydbDup duplicatePolicydbBools at copied
  dsimp only at copied
  split at copied
  · cases copied
  · rename_i bools
    split at bools
    · cases bools
    · cases bools
      unfold duplicatePolicydbCondList at copied
      rw [same] at copied
      cases copied
      exact ⟨fun c member => rawValid_same (q := p) ⟨rfl, rfl, rfl, rfl⟩ (from_conds.valid c member),
        from_conds.few, from_conds.replayed⟩

end Copies

section InForce

variable {p p' : Policydb} {conds : List RawCond} {bytes rest : List U8}

theorem evaluate_conds (from_conds : CondsFrom p conds) (evaluated : evaluateCondNodes p = .ok p') :
    ∃ conds', CondsFrom p' conds' := by
  unfold evaluateCondNodes at evaluated
  split at evaluated
  · cases evaluated
  · rename_i done
    cases evaluated
    obtain ⟨same, lists⟩ := evaluateCondList_switched done
    exact ⟨_, condsFrom_switched from_conds ⟨rfl, rfl, rfl, rfl⟩ rfl same lists⟩

/-- Other states of the booleans. -/
theorem bools_conds {bools : Symtab CondBoolDatum} (from_conds : CondsFrom p conds)
    (nprim : bools.nprim = p.pBools.nprim) : CondsFrom { p with pBools := bools } conds :=
  ⟨fun c member => rawValid_same (q := p) ⟨rfl, rfl, rfl, nprim⟩ (from_conds.valid c member),
    from_conds.few, from_conds.replayed⟩

theorem setBoolStates_nprim {values : List U32} {i : Nat} (set : setBoolStates values i p = .ok p') :
    p'.pBools.nprim = p.pBools.nprim := by
  induction values generalizing i p with
  | nil =>
    cases set
    rfl
  | cons value values ih =>
    unfold setBoolStates at set
    split at set
    · rw [ih set]
      rfl
    · cases set

theorem preserveBools_nprim (kept : List (Name × U32)) (bools : Symtab CondBoolDatum) :
    (kept.foldl preserveBool bools).nprim = bools.nprim := by
  induction kept generalizing bools with
  | nil => rfl
  | cons one kept ih =>
    rw [List.foldl_cons, ih]
    unfold preserveBool
    split
    · rfl
    · rfl

theorem setBools_conds {values : List U32} (from_conds : CondsFrom p conds)
    (set : securitySetBools p values = .ok p') : ∃ conds', CondsFrom p' conds' := by
  unfold securitySetBools at set
  split at set
  · cases set
  split at set
  · cases set
  rename_i copy copied
  split at set
  · cases set
  · rename_i changed states
    have same := bools_conds (dup_conds from_conds copied) (setBoolStates_nprim states)
    rw [← setBoolStates_ok states] at same
    exact evaluate_conds same set

theorem preserveBools_conds {old : Policydb} (from_conds : CondsFrom p conds)
    (kept : securityPreserveBools old p = .ok p') : ∃ conds', CondsFrom p' conds' := by
  unfold securityPreserveBools at kept
  split at kept
  · cases kept
  · exact evaluate_conds (bools_conds from_conds (preserveBools_nprim _ _)) kept

theorem condsFrom_same {q : Policydb} (from_conds : CondsFrom q conds) (checks : SameChecks p q)
    (te : p.teAvtab = q.teAvtab) (table : p.teCondAvtab = q.teCondAvtab) (list : p.condList = q.condList) :
    CondsFrom p conds :=
  ⟨fun c member => rawValid_same checks (from_conds.valid c member), from_conds.few,
    by rw [te, table, list]; exact from_conds.replayed⟩

theorem readRules_conds {info : PolicydbCompatInfo} (read : policydbReadRules bytes = .ok ((p, info), rest))
    (newer : policydbVersionAvtab ≤ p.policyvers) : ∃ conds, CondsFrom p conds := by
  obtain ⟨s, rfl⟩ := policydbReadRules_steps read
  have later : s.policy.policyvers = s.p₂.policyvers := by rw [s.frame]
  have before : s.p₂.policyvers = s.p₁.policyvers := by rw [s.condsRead.2]
  rw [later, before] at newer
  have conditional : policydbVersionBool ≤ s.p₁.policyvers := BitVec.le_trans (by decide) newer
  have cond := s.conds
  rw [if_pos conditional] at cond
  obtain ⟨conds, from_conds⟩ := condReadList_from (p := { s.p₁ with
    processClass := stringToSecurityClass s.p₁ processName, teAvtab := s.teAvtab }) newer cond
  refine ⟨conds, condsFrom_same from_conds ?_ ?_ ?_ ?_⟩
  · rw [s.frame]
    exact ⟨rfl, rfl, rfl, rfl⟩
  · rw [s.frame]
  · rw [s.frame]
  · rw [s.frame]

theorem read_conds (read : policydbRead bytes = .ok (p, rest)) (newer : policydbVersionAvtab ≤ p.policyvers) :
    ∃ conds, CondsFrom p conds := by
  obtain ⟨s, rfl⟩ := policydbRead_steps read
  obtain ⟨conds, from_conds⟩ := readRules_conds s.rules newer
  exact ⟨conds, condsFrom_same from_conds ⟨rfl, rfl, rfl, rfl⟩ rfl rfl rfl⟩

/-- The conditional rules of a policy in force come from conditionals. -/
theorem inForce_conds (inForce : InForce p) (newer : policydbVersionAvtab ≤ p.policyvers) :
    ∃ conds, CondsFrom p conds := by
  induction inForce with
  | loaded read => exact read_conds read newer
  | reloaded _ read kept _ =>
    have shape := policydbRead_shape read
    have same := (securityPreserveBools_ok shape.teCondAvtab kept).1
    rw [same] at newer
    obtain ⟨conds, from_conds⟩ := read_conds read newer
    exact preserveBools_conds from_conds kept
  | switched _ set ih =>
    have same := (securitySetBools_ok set).1
    rw [same] at newer
    obtain ⟨conds, from_conds⟩ := ih newer
    exact setBools_conds from_conds set

/-- After any loads and changes of the booleans, the section of the conditionals that is written is read
back to the table and the lists that are in force, with the rules that are switched on. -/
theorem conds_roundtrip (inForce : InForce p) (newer : policydbVersionAvtab ≤ p.policyvers) :
    ∃ written, ByteWriter.Emits einval (condWriteList p) written ∧
      ByteReader.Takes (condReadList p) written p := by
  obtain ⟨conds, from_conds⟩ := inForce_conds inForce newer
  exact conds_carry newer from_conds

/-- A rule that holds where a boolean does, and one that holds where it does not. -/
def eitherImage : PolicyImage :=
  { smallImage with
    bools := symbols 1 [boolBytes 1 0 (cstr ['c'])]
    conds := counted [condBytes 0 [(1, 1)] [ruleBytes 1 1 1 0x10 1] [ruleBytes 1 1 1 0x10 2]] }

/-- Whether setting the boolean switches a rule on. -/
def switchesOn (p : Policydb) : Bool :=
  match securitySetBools p [1] with
  | .ok p' => decide (policydbVersionAvtab ≤ p'.policyvers) &&
      p'.teCondAvtab.nodes.any fun n => n.key.specified &&& avtabEnabled != 0
  | .error _ => false

theorem conds_roundtrip_either : ∃ p, InForce p ∧
    (∃ n ∈ p.teCondAvtab.nodes, n.key.specified &&& avtabEnabled ≠ 0) ∧
      ∃ written, ByteWriter.Emits einval (condWriteList p) written ∧
        ByteReader.Takes (condReadList p) written p := by
  have accepted : eitherImage.accepts switchesOn = true := by decide +kernel
  obtain ⟨p, rest, read, test⟩ := PolicyImage.accepts_iff.mp accepted
  unfold switchesOn at test
  cases set : securitySetBools p [1] with
  | error e =>
    rw [set] at test
    cases test
  | ok p' =>
    rw [set] at test
    simp only [Bool.and_eq_true, decide_eq_true_eq, List.any_eq_true, bne_iff_ne] at test
    have inForce := InForce.switched (InForce.loaded read) set
    exact ⟨p', inForce, test.2, conds_roundtrip inForce test.1⟩

end InForce

end Ksrc.Guarantees.CondSwitches

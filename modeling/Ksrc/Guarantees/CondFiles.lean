import Ksrc.Guarantees.CondRuleItems
import Ksrc.Guarantees.RuleFiles

/-!
# Conditional rules that are written and read again

Source: `security/selinux/ss/conditional.c` (`cond_write_list`, `cond_write_node`,
`cond_write_av_list`, `cond_read_list`, `cond_read_node`, `cond_read_av_list`, `cond_insertf`),
`avtab.c` (`avtab_insert_nonunique`).

The rules of the lists, one list after the other, are all rules of `te_cond_avtab` in the order of
their insertions. So a table and its lists are what a replay of their own rules leaves.
-/
namespace Ksrc.Guarantees.CondFiles

open Library Source AvtabEnumeration AvRuleSets
open CondRuleItems PolicyCodecs RuleFiles
open RuleLog

variable {p : Policydb} {bytes rest : List U8} {te h h' : Avtab} {other : Option (List Nat)}

/-- What a file has of a conditional. -/
structure RawCond where
  curState : U32
  expr : List CondExprNode
  trues : List Rule
  falses : List Rule

/-- A conditional that passes the checks that look at no table. -/
structure RawValid (p : Policydb) (c : RawCond) : Prop where
  expr : ∀ e ∈ c.expr, exprNodeIsvalid p e = true
  trues : ∀ r ∈ c.trues, RuleStored p r
  falses : ∀ r ∈ c.falses, RuleStored p r
  exprFew : c.expr.length < 2 ^ 32
  truesFew : c.trues.length < 2 ^ 32
  falsesFew : c.falses.length < 2 ^ 32

/-- What the checks of a conditional look at. -/
structure SameChecks (p q : Policydb) : Prop where
  vers : p.policyvers = q.policyvers
  types : p.pTypes.nprim = q.pTypes.nprim
  classes : p.pClasses.nprim = q.pClasses.nprim
  bools : p.pBools.nprim = q.pBools.nprim

theorem ruleStored_same {q : Policydb} {r : Rule} (same : SameChecks p q) (stored : RuleStored q r) :
    RuleStored p r := by
  obtain ⟨valid, single, version, extended, plain, typed⟩ := stored
  unfold policydbTypeIsvalid policydbClassIsvalid at valid
  unfold policydbTypeIsvalid at typed
  rw [← same.types, ← same.classes] at valid
  rw [← same.vers] at version
  rw [← same.types] at typed
  exact ⟨valid, single, version, extended, plain, typed⟩

theorem rawValid_same {q : Policydb} {c : RawCond} (same : SameChecks p q) (valid : RawValid q c) :
    RawValid p c := by
  refine ⟨fun e member => ?_, fun r member => ruleStored_same same (valid.trues r member),
    fun r member => ruleStored_same same (valid.falses r member), valid.exprFew, valid.truesFew, valid.falsesFew⟩
  have checked := valid.expr e member
  unfold exprNodeIsvalid at checked ⊢
  rw [same.bools]
  exact checked

section Replay

/-- One rule in the loop of `cond_read_av_list`. -/
def condStep (te : Avtab) (other : Option (List Nat)) (st : Avtab × List Nat) (r : Rule) :
    Except Fault (Avtab × List Nat) := do
  let done ← condInsertf te other r.1 r.2 (st.1, none)
  let addr ← derefPtr done.2
  pure (done.1, st.2 ++ [addr])

/-- One conditional in the loop of `cond_read_list`. -/
def condNodeStep (te : Avtab) (st : Avtab × List CondNode) (c : RawCond) :
    Except Fault (Avtab × List CondNode) := do
  let whenTrue ← c.trues.foldlM (condStep te none) (st.1, [])
  let whenFalse ← c.falses.foldlM (condStep te (some whenTrue.2)) (whenTrue.1, [])
  pure (whenFalse.1, st.2 ++ [{ curState := c.curState, expr := c.expr, trueList := whenTrue.2
                                falseList := whenFalse.2 }])

/-- The loop of `cond_read_list`. -/
def replay (te : Avtab) (conds : List RawCond) : Except Fault (Avtab × List CondNode) :=
  conds.foldlM (condNodeStep te) (avtabAlloc (BitVec.ofNat 32 te.nel), [])

/-- The conditional rules of the policy come from these conditionals. -/
structure CondsFrom (p : Policydb) (conds : List RawCond) : Prop where
  valid : ∀ c ∈ conds, RawValid p c
  few : conds.length < 2 ^ 32
  replayed : replay p.teAvtab conds = .ok (p.teCondAvtab, p.condList)

end Replay

section Reading

/-- The readers before the insertions. -/
def readRawList (p : Policydb) : PolicyReader (List Rule) := do
  let len ← nextU32
  ByteReader.several (readRule p) len.toNat

def readRawCond (p : Policydb) : PolicyReader RawCond := do
  let curState ← nextU32
  let len ← nextU32
  let expr ← ByteReader.several (condReadExprNode p) len.toNat
  let trues ← readRawList p
  let falses ← readRawList p
  pure { curState, expr, trues, falses }

theorem condReadAvList_rounds (newer : policydbVersionAvtab ≤ p.policyvers) (h : Avtab) :
    condReadAvList p h other = nextU32 >>= fun len =>
      rounds (readRule p) (condStep p.teAvtab other) len.toNat (h, []) := by
  have items : condReadAvItem p other =
      fun st => readRule p >>= fun r => ByteReader.lift (condStep p.teAvtab other st r) := by
    funext st
    unfold condReadAvItem
    rw [avtabReadItem_rule newer, ByteReader.bind_assoc]
    refine congrArg (readRule p >>= ·) (funext fun r => ?_)
    funext s
    unfold condStep
    simp only [bind, ByteReader.andThen, ByteReader.lift, Except.bind, pure, ByteReader.ret, Except.pure]
    cases condInsertf p.teAvtab other r.1 r.2 (st.1, none) with
    | error e => rfl
    | ok done =>
      dsimp only
      cases derefPtr done.2 with
      | error e => rfl
      | ok addr => rfl
  unfold condReadAvList rounds
  rw [items]

theorem condReadAvList_raw {list : List Nat} (newer : policydbVersionAvtab ≤ p.policyvers)
    (read : condReadAvList p h other bytes = .ok ((h', list), rest)) :
    ∃ rules, readRawList p bytes = .ok (rules, rest) ∧ rules.length < 2 ^ 32 ∧
      (∀ r ∈ rules, RuleStored p r) ∧ rules.foldlM (condStep p.teAvtab other) (h, []) = .ok (h', list) := by
  rw [condReadAvList_rounds newer, ByteReader.bind_ok] at read
  obtain ⟨len, _, counted, loop⟩ := read
  obtain ⟨rules, row, folded⟩ := rounds_several loop
  have length := ByteReader.several_length row
  have := len.isLt
  exact ⟨rules, ByteReader.bind_ok.mpr ⟨len, _, counted, row⟩, by omega,
    ByteReader.several_all (fun _ _ _ once => readRule_stored once) row, folded⟩

theorem condReadExprNode_valid {e : CondExprNode} (read : condReadExprNode p bytes = .ok (e, rest)) :
    exprNodeIsvalid p e = true := by
  simp only [condReadExprNode, ByteReader.bind_ok, ByteReader.require_ok, ByteReader.pure_ok] at read
  obtain ⟨_, _, -, _, _, -, _, _, ⟨valid, -⟩, rfl, -⟩ := read
  exact valid

theorem condReadNode_raw {st st' : Avtab × List CondNode} (newer : policydbVersionAvtab ≤ p.policyvers)
    (read : condReadNode p st bytes = .ok (st', rest)) :
    ∃ c, readRawCond p bytes = .ok (c, rest) ∧ RawValid p c ∧ condNodeStep p.teAvtab st c = .ok st' := by
  simp only [condReadNode, ByteReader.bind_ok, ByteReader.pure_ok] at read
  obtain ⟨curState, _, stateRead, len, _, lenRead, expr, _, exprRead, ⟨h₁, trueList⟩, _, trueRead,
    ⟨h₂, falseList⟩, _, falseRead, rfl, rfl⟩ := read
  obtain ⟨trues, sameTrues, fewTrues, validTrues, foldedTrues⟩ := condReadAvList_raw newer trueRead
  obtain ⟨falses, sameFalses, fewFalses, validFalses, foldedFalses⟩ := condReadAvList_raw newer falseRead
  have exprLength := ByteReader.several_length exprRead
  have := len.isLt
  refine ⟨⟨curState, expr, trues, falses⟩, ?_, ?_, ?_⟩
  · simp only [readRawCond, ByteReader.bind_ok, ByteReader.pure_ok]
    exact ⟨curState, _, stateRead, len, _, lenRead, expr, _, exprRead, trues, _, sameTrues, falses, _,
      sameFalses, rfl, rfl⟩
  · exact ⟨ByteReader.several_all (fun _ _ _ once => condReadExprNode_valid once) exprRead, validTrues,
      validFalses, by dsimp only; omega, fewTrues, fewFalses⟩
  · unfold condNodeStep
    rw [foldedTrues]
    dsimp only [bind, Except.bind]
    rw [foldedFalses]
    rfl

/-- The conditional rules of a file come from its conditionals. -/
theorem condReadList_from {p' : Policydb} (newer : policydbVersionAvtab ≤ p.policyvers)
    (read : condReadList p bytes = .ok (p', rest)) : ∃ conds, CondsFrom p' conds := by
  simp only [condReadList, ByteReader.bind_ok, ByteReader.pure_ok] at read
  obtain ⟨len, _, count, ⟨table, list⟩, _, loop, rfl, rfl⟩ := read
  have start : (∀ c ∈ ([] : List RawCond), RawValid p c) ∧
      replay p.teAvtab [] = .ok (avtabAlloc (BitVec.ofNat 32 p.teAvtab.nel), []) := ⟨by simp, rfl⟩
  obtain ⟨conds, row, valid, folded⟩ := ByteReader.times_several
    (fun st (conds : List RawCond) => (∀ c ∈ conds, RawValid p c) ∧ replay p.teAvtab conds = .ok st)
    (f := condReadNode p) (x := readRawCond p)
    (fun mid bytes after rest before known once => by
      obtain ⟨valid, folded⟩ := known
      obtain ⟨c, same, validOne, step⟩ := condReadNode_raw newer once
      refine ⟨c, same, fun d member => ?_, ?_⟩
      · rcases List.mem_append.mp member with old | new
        · exact valid d old
        · rw [List.mem_singleton.mp new]
          exact validOne
      · unfold replay at folded ⊢
        rw [List.foldlM_append, folded]
        change List.foldlM (condNodeStep p.teAvtab) mid [c] = .ok after
        rw [List.foldlM_cons, step]
        rfl) start loop
  have length := ByteReader.several_length row
  have := len.isLt
  rw [List.nil_append] at valid folded
  exact ⟨conds, fun c member => rawValid_same (q := p) ⟨rfl, rfl, rfl, rfl⟩ (valid c member), by omega, folded⟩

end Reading

section Logs

variable {log : List Rule} {r : Rule} {conds : List RawCond}

/-- The table holds the rules of the log, each at its position. -/
structure Holds (h : Avtab) (log : List Rule) : Prop where
  logged : Logged h (log.map Prod.fst)
  rules : ∀ n ∈ h.nodes, log[n.addr]? = some (rule n)

/-- The addresses lead to the rules. -/
def ListAt (log : List Rule) (list : List Nat) (rules : List Rule) : Prop :=
  List.Forall₂ (fun addr r => log[addr]? = some r) list rules

/-- The conditional, with the addresses of its rules. -/
structure NodeAt (log : List Rule) (c : RawCond) (node : CondNode) : Prop where
  curState : node.curState = c.curState
  expr : node.expr = c.expr
  trues : ListAt log node.trueList c.trues
  falses : ListAt log node.falseList c.falses

theorem holds_alloc (nrules : U32) : Holds (avtabAlloc nrules) [] := by
  have logged := logged_alloc nrules
  refine ⟨logged, fun n member => ?_⟩
  have none := logged.inside member
  rw [List.length_nil] at none
  omega

theorem holds_insert {addr : Nat} (holds : Holds h log)
    (inserted : avtabInsertNonunique h r.1 r.2 = some (h', addr)) :
    addr = log.length ∧ Holds h' (log ++ [r]) := by
  obtain ⟨place, logged⟩ := logged_insert holds.logged inserted
  obtain ⟨-, -, perm⟩ := avtabInsertNonunique_perm inserted
  rw [List.length_map] at place
  have keys : (log ++ [r]).map Prod.fst = log.map Prod.fst ++ [r.1] := by
    rw [List.map_append, List.map_singleton]
  refine ⟨place, ⟨by rw [keys]; exact logged, fun n member => ?_⟩⟩
  have nel := holds.logged.nel
  rw [List.length_map] at nel
  rcases List.mem_cons.mp (perm.mem_iff.mp member) with rfl | old
  · rw [nel, List.getElem?_append_right (Nat.le_refl _), Nat.sub_self]
    rfl
  · have inside := holds.logged.inside old
    rw [List.length_map] at inside
    rw [List.getElem?_append_left inside]
    exact holds.rules n old

/-- The node at an address is the rule of the log. -/
theorem Holds.deref {addr : Nat} (holds : Holds h log) (found : log[addr]? = some r) :
    h.deref addr = some { addr, key := r.1, datum := r.2 } := by
  have inside : addr < (log.map Prod.fst).length := by
    rw [List.length_map]
    exact (List.getElem?_eq_some_iff.mp found).1
  obtain ⟨m, here, at'⟩ := holds.logged.node_at inside
  unfold Avtab.deref
  cases searched : h.nodes.find? (·.addr == addr) with
  | none =>
    have other := List.find?_eq_none.mp searched m here
    rw [at'] at other
    exact absurd (beq_self_eq_true addr) other
  | some n =>
    have same : n.addr = addr := by
      have hit := List.find?_some searched
      exact beq_iff_eq.mp hit
    have held := holds.rules n (List.mem_of_find?_eq_some searched)
    rw [same, found, Option.some.injEq] at held
    obtain ⟨a, key, datum⟩ := n
    subst same
    rw [held]
    rfl

theorem ListAt.more {list : List Nat} {rules : List Rule} (more : List Rule) (listed : ListAt log list rules) :
    ListAt (log ++ more) list rules := by
  refine List.Forall₂.imp (fun addr r found => ?_) listed
  rw [List.getElem?_append_left (List.getElem?_eq_some_iff.mp found).1]
  exact found

theorem NodeAt.more {c : RawCond} {node : CondNode} (more : List Rule) (stands : NodeAt log c node) :
    NodeAt (log ++ more) c node :=
  ⟨stands.curState, stands.expr, stands.trues.more more, stands.falses.more more⟩

/-- One rule passes the checks and is the last of the log. -/
theorem condStep_ok {st st' : Avtab × List Nat} :
    condStep te other st r = .ok st' ↔ condInsertfCheck te st.1 other r.1 = .ok () ∧
      ∃ addr, avtabInsertNonunique st.1 r.1 r.2 = some (st'.1, addr) ∧ st'.2 = st.2 ++ [addr] := by
  unfold condStep condInsertf
  dsimp only
  cases condInsertfCheck te st.1 other r.1 with
  | error e => simp [bind, Except.bind]
  | ok u =>
    cases avtabInsertNonunique st.1 r.1 r.2 with
    | none => simp [bind, Except.bind]
    | some done =>
      obtain ⟨table, addr⟩ := done
      obtain ⟨h', list⟩ := st'
      simp only [bind, Except.bind, derefPtr, pure, Except.pure, Except.ok.injEq, Prod.mk.injEq,
        Option.some.injEq, true_and]
      constructor
      · rintro ⟨rfl, rfl⟩
        exact ⟨addr, ⟨rfl, rfl⟩, rfl⟩
      · rintro ⟨_, ⟨rfl, rfl⟩, rfl⟩
        exact ⟨rfl, rfl⟩

/-- The rules of a list are the next ones of the log. -/
theorem condSteps_log {rules : List Rule} {s t : Avtab × List Nat} (holds : Holds s.1 log)
    (folded : rules.foldlM (condStep te other) s = .ok t) :
    Holds t.1 (log ++ rules) ∧ t.2 = s.2 ++ List.range' log.length rules.length := by
  induction rules generalizing log s with
  | nil =>
    cases folded
    rw [List.append_nil]
    exact ⟨holds, (List.append_nil _).symm⟩
  | cons r rules ih =>
    rw [List.foldlM_cons, exceptBind_ok] at folded
    obtain ⟨mid, step, more⟩ := folded
    obtain ⟨-, addr, inserted, appended⟩ := condStep_ok.mp step
    obtain ⟨place, holdsMid⟩ := holds_insert holds inserted
    obtain ⟨holdsAll, lists⟩ := ih holdsMid more
    rw [List.append_assoc] at holdsAll
    refine ⟨holdsAll, ?_⟩
    rw [lists, appended, place, List.append_assoc, List.length_append, List.length_singleton,
      List.length_cons, List.range'_succ]
    rfl

/-- Positions in a row of the log have the rules there. -/
theorem listAt_range (before rules behind : List Rule) :
    ListAt (before ++ rules ++ behind) (List.range' before.length rules.length) rules := by
  induction rules generalizing before with
  | nil => exact .nil
  | cons r rules ih =>
    rw [List.length_cons, List.range'_succ]
    refine .cons ?_ ?_
    · rw [List.append_assoc, List.getElem?_append_right (Nat.le_refl _), Nat.sub_self]
      rfl
    · have later := ih (before ++ [r])
      rw [List.length_append, List.append_assoc before] at later
      exact later

theorem condNodeStep_log {st st' : Avtab × List CondNode} {c : RawCond} (holds : Holds st.1 log)
    (step : condNodeStep te st c = .ok st') :
    Holds st'.1 (log ++ (c.trues ++ c.falses)) ∧
      ∃ node, st'.2 = st.2 ++ [node] ∧ NodeAt (log ++ (c.trues ++ c.falses)) c node ∧
        node.trueList ++ node.falseList = List.range' log.length (c.trues ++ c.falses).length := by
  unfold condNodeStep at step
  rw [exceptBind_ok] at step
  obtain ⟨whenTrue, trues, step⟩ := step
  rw [exceptBind_ok] at step
  obtain ⟨whenFalse, falses, made⟩ := step
  cases made
  obtain ⟨holdsTrue, trueList⟩ := condSteps_log holds trues
  obtain ⟨holdsFalse, falseList⟩ := condSteps_log (s := (whenTrue.1, [])) holdsTrue falses
  rw [List.append_assoc] at holdsFalse
  rw [List.nil_append] at trueList falseList
  refine ⟨holdsFalse, _, rfl, ⟨rfl, rfl, ?_, ?_⟩, ?_⟩
  · dsimp only
    rw [trueList, ← List.append_assoc]
    exact listAt_range log c.trues c.falses
  · dsimp only
    have listed := listAt_range (log ++ c.trues) c.falses []
    rw [List.append_nil, List.append_assoc] at listed
    rw [falseList]
    exact listed
  · dsimp only
    rw [trueList, falseList, List.length_append, List.length_append, List.range'_append_1]

/-- The rules of the lists, one list after the other. -/
def allRules (conds : List RawCond) : List Rule := conds.flatMap fun c => c.trues ++ c.falses

theorem condNodeSteps_log {st st' : Avtab × List CondNode} (holds : Holds st.1 log)
    (folded : conds.foldlM (condNodeStep te) st = .ok st') :
    Holds st'.1 (log ++ allRules conds) ∧
      ∃ nodes, st'.2 = st.2 ++ nodes ∧ List.Forall₂ (NodeAt (log ++ allRules conds)) conds nodes ∧
        listed nodes = List.range' log.length (allRules conds).length := by
  induction conds generalizing log st with
  | nil =>
    cases folded
    refine ⟨?_, [], (List.append_nil _).symm, .nil, rfl⟩
    rw [allRules, List.flatMap_nil, List.append_nil]
    exact holds
  | cons c conds ih =>
    rw [List.foldlM_cons, exceptBind_ok] at folded
    obtain ⟨mid, step, more⟩ := folded
    obtain ⟨holdsMid, node, lists, first, places⟩ := condNodeStep_log holds step
    obtain ⟨holdsAll, nodes, listsAll, stands, later⟩ := ih holdsMid more
    have whole : log ++ allRules (c :: conds) = log ++ (c.trues ++ c.falses) ++ allRules conds := by
      simp only [allRules, List.flatMap_cons, List.append_assoc]
    rw [whole]
    refine ⟨holdsAll, node :: nodes, ?_, .cons (first.more _) stands, ?_⟩
    · rw [listsAll, lists, List.append_assoc]
      rfl
    · unfold listed allRules at later ⊢
      rw [List.length_append] at later
      rw [List.flatMap_cons, List.flatMap_cons, places, later, List.range'_append_1, ← List.length_append]

/-- The table holds the rules of the lists, in their order. -/
theorem replay_log {table : Avtab} {list : List CondNode} (replayed : replay te conds = .ok (table, list)) :
    Holds table (allRules conds) ∧ List.Forall₂ (NodeAt (allRules conds)) conds list ∧
      listed list = List.range (allRules conds).length := by
  obtain ⟨holds, nodes, lists, stands, places⟩ := condNodeSteps_log (holds_alloc _) replayed
  rw [List.nil_append] at holds lists stands
  rw [← lists] at stands places
  rw [List.range_eq_range']
  exact ⟨holds, stands, places⟩

end Logs

section Writing

variable {log : List Rule} {conds : List RawCond}

/-- The body of the loop of `cond_write_av_list`. -/
theorem rules_carry {list : List Nat} {rules : List Rule} (holds : Holds h log)
    (listed : ListAt log list rules) (stored : ∀ r ∈ rules, RuleStored p r) :
    List.Forall₂ (fun addr r => Carries einval
      (match h.deref addr with
        | none => ByteWriter.fail .oops
        | some node => avtabWriteItem node) (readRule p) r) list rules := by
  induction listed with
  | nil => exact .nil
  | cons found _ ih =>
    refine .cons ?_ (ih fun r member => stored r (List.mem_cons_of_mem _ member))
    rw [holds.deref found]
    exact rule_carries (stored _ List.mem_cons_self)

theorem list_carries {list : List Nat} {rules : List Rule} (newer : policydbVersionAvtab ≤ p.policyvers)
    (holds : Holds p.teCondAvtab log) (listed : ListAt log list rules) (few : rules.length < 2 ^ 32)
    (stored : ∀ r ∈ rules, RuleStored p r)
    (folded : rules.foldlM (condStep p.teAvtab other) (h, []) = .ok (h', list)) :
    Carries einval (condWriteAvList p list) (condReadAvList p h other) (h', list) := by
  rw [condReadAvList_rounds newer]
  unfold condWriteAvList
  have number : (BitVec.ofNat 32 list.length).toNat = list.length := by
    rw [BitVec.toNat_ofNat, Nat.mod_eq_of_lt (listed.length_eq ▸ few)]
  refine (u32_carries _).cons ?_
  rw [number]
  exact (Carries.rounds (rules_carry holds listed stored) folded).last

theorem exprNode_carries {e : CondExprNode} (valid : exprNodeIsvalid p e = true) :
    Carries einval (ByteWriter.seq [putU32 e.exprType, putU32 e.boolean]) (condReadExprNode p) e :=
  (u32_carries _).cons ((u32_carries _).cons (.require valid (.pure _)))

theorem node_carries {c : RawCond} {node : CondNode} {st st' : Avtab × List CondNode}
    (newer : policydbVersionAvtab ≤ p.policyvers) (holds : Holds p.teCondAvtab log)
    (stands : NodeAt log c node) (valid : RawValid p c) (last : st'.2 = st.2 ++ [node])
    (step : condNodeStep p.teAvtab st c = .ok st') :
    Carries einval (condWriteNode p node) (condReadNode p st) st' := by
  unfold condNodeStep at step
  rw [exceptBind_ok] at step
  obtain ⟨whenTrue, trues, step⟩ := step
  rw [exceptBind_ok] at step
  obtain ⟨whenFalse, falses, made⟩ := step
  cases made
  have same := List.append_cancel_left last
  cases same
  obtain ⟨h₁, trueList⟩ := whenTrue
  obtain ⟨h₂, falseList⟩ := whenFalse
  have number : (BitVec.ofNat 32 c.expr.length).toNat = c.expr.length := by
    rw [BitVec.toNat_ofNat, Nat.mod_eq_of_lt valid.exprFew]
  have expr : Carries einval
      (ByteWriter.each (fun e : CondExprNode => ByteWriter.seq [putU32 e.exprType, putU32 e.boolean]) c.expr)
      (ByteReader.several (condReadExprNode p) c.expr.length) c.expr := by
    have each : ∀ e ∈ c.expr, ∃ e', e = e' ∧ Carries einval
        (ByteWriter.seq [putU32 e.exprType, putU32 e.boolean]) (condReadExprNode p) e' :=
      fun e member => ⟨e, rfl, exprNode_carries (valid.expr e member)⟩
    obtain ⟨results, same, carried⟩ := Carries.several each
    rw [List.forall₂_eq_eq_eq] at same
    rw [← same] at carried
    exact carried
  unfold condWriteNode condReadNode
  refine (u32_carries _).cons ((u32_carries _).cons ?_)
  dsimp only
  rw [number]
  refine expr.cons ?_
  refine (list_carries newer holds stands.trues valid.truesFew valid.trues trues).cons ?_
  exact (list_carries newer holds stands.falses valid.falsesFew valid.falses falses).last.map

theorem nodes_carry {full more : List Rule} {st st' : Avtab × List CondNode}
    (newer : policydbVersionAvtab ≤ p.policyvers) (holdsFull : Holds p.teCondAvtab full)
    (holds : Holds st.1 log) (part : full = log ++ allRules conds ++ more)
    (valid : ∀ c ∈ conds, RawValid p c) (folded : conds.foldlM (condNodeStep p.teAvtab) st = .ok st') :
    ∃ nodes, st'.2 = st.2 ++ nodes ∧ nodes.length = conds.length ∧
      Carries einval (ByteWriter.each (condWriteNode p) nodes)
        (ByteReader.times (condReadNode p) conds.length st) st' := by
  induction conds generalizing log st with
  | nil =>
    cases folded
    exact ⟨[], (List.append_nil _).symm, rfl, .pure _⟩
  | cons c conds ih =>
    rw [List.foldlM_cons, exceptBind_ok] at folded
    obtain ⟨mid, step, others⟩ := folded
    obtain ⟨holdsMid, node, lists, stands, -⟩ := condNodeStep_log holds step
    have whole : full = log ++ (c.trues ++ c.falses) ++ allRules conds ++ more := by
      rw [part]
      simp only [allRules, List.flatMap_cons, List.append_assoc]
    obtain ⟨nodes, listsAll, length, carried⟩ :=
      ih holdsMid whole (fun c member => valid c (List.mem_cons_of_mem _ member)) others
    have standsFull : NodeAt full c node := by
      rw [whole, List.append_assoc]
      exact stands.more _
    have first := node_carries newer holdsFull standsFull (valid c List.mem_cons_self) lists step
    refine ⟨node :: nodes, ?_, by rw [List.length_cons, List.length_cons, length], first.andThen carried⟩
    rw [listsAll, lists, List.append_assoc]
    rfl

/-- Conditional rules that come from conditionals are read back as they are. -/
theorem conds_carry (newer : policydbVersionAvtab ≤ p.policyvers) (from_conds : CondsFrom p conds) :
    Carries einval (condWriteList p) (condReadList p) p := by
  obtain ⟨holds, -⟩ := replay_log from_conds.replayed
  have whole : allRules conds = [] ++ allRules conds ++ [] := by rw [List.nil_append, List.append_nil]
  obtain ⟨nodes, lists, length, carried⟩ := nodes_carry newer holds
    (holds_alloc (BitVec.ofNat 32 p.teAvtab.nel)) whole from_conds.valid from_conds.replayed
  rw [List.nil_append] at lists
  subst lists
  have number : (BitVec.ofNat 32 p.condList.length).toNat = conds.length := by
    have few := from_conds.few
    rw [BitVec.toNat_ofNat, length, Nat.mod_eq_of_lt few]
  unfold condWriteList condReadList
  refine (u32_carries _).cons ?_
  rw [number]
  exact carried.last.map (g := fun done => ({ p with teCondAvtab := done.1, condList := done.2 } : Policydb))

end Writing

end Ksrc.Guarantees.CondFiles

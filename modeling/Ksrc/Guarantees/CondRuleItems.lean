import Ksrc.Library.Blocks
import Ksrc.Guarantees.PolicydbShape
import Ksrc.Guarantees.RuleLog

/-!
# The items of the conditional lists

Source: `security/selinux/ss/conditional.c` (`cond_insertf`, `cond_read_av_list`,
`cond_read_node`, `cond_read_list`), `avtab.c` (`avtab_read_item`).

`cond_read_av_list` keeps one slot for each item of the image, and `cond_insertf` stores the node
of every rule of the item in it: the slot ends up with the last one.
-/
namespace Ksrc.Guarantees.CondRuleItems

open Library Source AvtabEnumeration PolicydbShape
  RuleLog

/-- The items of the two lists of a conditional, each with the keys of its rules. -/
structure CondItems where
  trueItems : List (List AvtabKey)
  falseItems : List (List AvtabKey)
  deriving DecidableEq, Repr

/-- The keys of the rules of one item. -/
def readItemKeys (p : Policydb) : PolicyReader (List AvtabKey) :=
  avtabReadItem p (fun k _ keys => .ok (keys ++ [k])) []

/-- The items of a list. -/
def readItems (p : Policydb) : PolicyReader (List (List AvtabKey)) := do
  let len ← nextU32
  ByteReader.several (readItemKeys p) len.toNat

/-- The items of a conditional. -/
def readCond (p : Policydb) : PolicyReader CondItems := do
  let _ ← nextU32
  let len ← nextU32
  let _ ← ByteReader.several (condReadExprNode p) len.toNat
  let trueItems ← readItems p
  let falseItems ← readItems p
  pure ⟨trueItems, falseItems⟩

/-- The conditionals of an image, where its section of them starts. -/
def readConds (p : Policydb) : PolicyReader (List CondItems) := do
  let len ← nextU32
  ByteReader.several (readCond p) len.toNat

/-- The items of the conditional lists of an image. -/
def imageConds : PolicyReader (List CondItems) := do
  let (p, info) ← policydbReadHeader
  let p ← symtabsRead info.symNum p
  let p := { p with processClass := stringToSecurityClass p processName }
  let teAvtab ← avtabRead p
  let p := { p with teAvtab }
  if policydbVersionBool ≤ p.policyvers then readConds p else pure []

namespace CondItems

def items (c : CondItems) : List (List AvtabKey) := c.trueItems ++ c.falseItems

end CondItems

/-- All items, in the order of the image. -/
def allItems (conds : List CondItems) : List (List AvtabKey) := conds.flatMap CondItems.items

/-- The keys in the order of their insertions. -/
def allKeys (conds : List CondItems) : List AvtabKey := (allItems conds).flatten

/-- The type rules of a key outside of the conditionals and in the log are none, or one of the
list of true rules. -/
structure Accepted (te : Avtab) (log : List AvtabKey) (other : Option (List Nat)) (k : AvtabKey) :
    Prop where
  apart : avtabMatches te k = []
  alone : ∀ i j, MatchAt log k i → MatchAt log k j → i = j
  paired : ∀ i, MatchAt log k i → ∃ list, other = some list ∧ i ∈ list

/-- The type rules among the keys are accepted one after another, behind the log. -/
def AcceptedAll (te : Avtab) (log : List AvtabKey) (other : Option (List Nat))
    (keys : List AvtabKey) : Prop :=
  ∀ before k after, keys = before ++ k :: after → k.specified &&& avtabType ≠ 0 →
    Accepted te (log ++ before) other k

/-- What reading a conditional behind the log leaves in its lists. -/
structure NodeRead (te : Avtab) (log : List AvtabKey) (c : CondItems) (node : CondNode) : Prop where
  trueList : node.trueList = ends log.length c.trueItems
  falseList : node.falseList = ends (log ++ c.trueItems.flatten).length c.falseItems
  trues : AcceptedAll te log none c.trueItems.flatten
  falses : AcceptedAll te (log ++ c.trueItems.flatten) (some node.trueList) c.falseItems.flatten

/-- The addresses on the lists. -/
def listed (conds : List CondNode) : List Nat := conds.flatMap fun node => node.trueList ++ node.falseList

/-- How the conditionals of an image were read. -/
structure CondsRead (te : Avtab) (image : List CondItems) (conds : List CondNode) : Prop where
  full : ∀ item ∈ allItems image, item ≠ []
  listed : listed conds = ends 0 (allItems image)
  each : ∀ before c after, image = before ++ c :: after →
    ∃ node ∈ conds, NodeRead te (allKeys before) c node

section Check

variable {te h : Avtab} {log : List AvtabKey} {other : Option (List Nat)} {k : AvtabKey}

/-- A type rule that passes the checks is accepted. -/
theorem accepted_of_check (logged : Logged h log) (typed : k.specified &&& avtabType ≠ 0)
    (checked : condInsertfCheck te h other k = .ok ()) : Accepted te log other k := by
  unfold condInsertfCheck at checked
  rw [if_neg typed] at checked
  split at checked
  · cases checked
  · rename_i outside
    rw [Bool.not_eq_true, Option.isSome_eq_false_iff, Option.isNone_iff_eq_none,
      avtabSearchNode_none] at outside
    split at checked
    · rename_i nothing
      rw [avtabSearchNode_none] at nothing
      have noMatch : ∀ i, ¬ MatchAt log k i := by
        intro i hit
        obtain ⟨n, member, -⟩ := logged.matches_iff.mpr hit
        rw [nothing] at member
        cases member
      constructor
      · exact outside
      · intro i j hit
        exact absurd hit (noMatch i)
      · intro i hit
        exact absurd hit (noMatch i)
    · cases checked
    · rename_i list node next found
      obtain ⟨more, matching, further⟩ := avtabSearchNode_some found
      split at checked
      · cases checked
      · rename_i single
        rw [further, not_not] at single
        subst single
        have only : ∀ i, MatchAt log k i → i = node.addr := by
          intro i hit
          obtain ⟨n, member, rfl⟩ := logged.matches_iff.mpr hit
          rw [matching, List.mem_singleton] at member
          rw [member]
        split at checked
        · rename_i onList
          constructor
          · exact outside
          · intro i j here there
            rw [only i here, only j there]
          · intro i hit
            refine ⟨list, rfl, ?_⟩
            rw [only i hit]
            exact List.contains_iff_mem.mp onList
        · cases checked

end Check

section Keys

variable {te : Avtab} {log keys : List AvtabKey} {other : Option (List Nat)} {k : AvtabKey}

theorem acceptedAll_nil : AcceptedAll te log other [] := by
  intro before k after split
  simp at split

theorem acceptedAll_append {more : List AvtabKey} (first : AcceptedAll te log other keys)
    (second : AcceptedAll te (log ++ keys) other more) : AcceptedAll te log other (keys ++ more) := by
  intro before k after split typed
  rcases List.append_eq_append_iff.mp split with ⟨between, rfl, rest⟩ | ⟨between, rfl, rest⟩
  · have behind := second between k after rest typed
    rw [List.append_assoc] at behind
    exact behind
  · cases between with
    | nil =>
      have behind := second [] k after rest.symm typed
      simpa using behind
    | cons key between =>
      cases rest
      exact first before k between rfl typed

theorem acceptedAll_singleton (accepted : k.specified &&& avtabType ≠ 0 → Accepted te log other k) :
    AcceptedAll te log other [k] := by
  intro before key after split typed
  cases before with
  | nil =>
    cases split
    rw [List.append_nil]
    exact accepted typed
  | cons first before => simp at split

end Keys

section Items

variable {p : Policydb} {other : Option (List Nat)} {h h' : Avtab} {log : List AvtabKey}
  {bytes rest : List U8}

/-- The table, and the slot, after the rules of an item so far. -/
structure ItemRead (te : Avtab) (log : List AvtabKey) (other : Option (List Nat))
    (st : Avtab × Option Nat) (keys : List AvtabKey) : Prop where
  logged : Logged st.1 (log ++ keys)
  accepted : AcceptedAll te log other keys
  slot : st.2 = if keys = [] then none else some (log.length + keys.length - 1)

theorem condInsertf_item {te : Avtab} :
    InsertSimulates (ItemRead te log other) (condInsertf te other)
      fun k _ keys => .ok (keys ++ [k]) := by
  intro k d st st' keys _ read inserted
  refine ⟨keys ++ [k], rfl, ?_⟩
  unfold condInsertf at inserted
  split at inserted
  · cases inserted
  · rename_i checked
    split at inserted
    · cases inserted
    · rename_i table addr linked
      cases inserted
      obtain ⟨place, logged⟩ := logged_insert read.logged linked
      constructor
      · rw [← List.append_assoc]
        exact logged
      · exact acceptedAll_append read.accepted
          (acceptedAll_singleton fun typed => accepted_of_check read.logged typed checked)
      · rw [if_neg (by simp), place]
        simp only [List.length_append, List.length_singleton]
        rfl

/-- The table, and the list, after the items so far. -/
structure ListRead (te : Avtab) (log : List AvtabKey) (other : Option (List Nat))
    (st : Avtab × List Nat) (items : List (List AvtabKey)) : Prop where
  logged : Logged st.1 (log ++ items.flatten)
  accepted : AcceptedAll te log other items.flatten
  list : st.2 = ends log.length items
  full : ∀ item ∈ items, item ≠ []

theorem condReadAvItem_item {st st' : Avtab × List Nat} {items : List (List AvtabKey)}
    (read : ListRead p.teAvtab log other st items)
    (once : condReadAvItem p other st bytes = .ok (st', rest)) :
    ∃ keys, readItemKeys p bytes = .ok (keys, rest) ∧
      ListRead p.teAvtab log other st' (items ++ [keys]) := by
  simp only [condReadAvItem, ByteReader.bind_ok, ByteReader.pure_ok, ByteReader.lift_ok] at once
  obtain ⟨⟨table, dst⟩, _, item, addr, _, ⟨slot, rfl⟩, rfl, rfl⟩ := once
  have start : ItemRead p.teAvtab (log ++ items.flatten) other (st.1, none) [] := by
    constructor
    · simpa using read.logged
    · exact acceptedAll_nil
    · rfl
  obtain ⟨keys, same, done⟩ := avtabReadItem_simulates condInsertf_item start item
  refine ⟨keys, same, ?_⟩
  have nonempty : keys ≠ [] := by
    intro empty
    have none := done.slot
    simp only [empty, if_true] at none
    rw [none] at slot
    cases slot
  have last := done.slot
  rw [if_neg nonempty] at last
  simp only at last
  rw [last] at slot
  cases slot
  have flat : (items ++ [keys]).flatten = items.flatten ++ keys := by simp
  constructor
  · rw [flat, ← List.append_assoc]
    exact done.logged
  · rw [flat]
    exact acceptedAll_append read.accepted done.accepted
  · simp only [read.list, ends_append, ends, List.length_append]
  · intro item member
    rcases List.mem_append.mp member with old | new
    · exact read.full item old
    · rw [List.mem_singleton.mp new]
      exact nonempty

theorem condReadAvList_items {list : List Nat} (logged : Logged h log)
    (read : condReadAvList p h other bytes = .ok ((h', list), rest)) :
    ∃ items, readItems p bytes = .ok (items, rest) ∧
      ListRead p.teAvtab log other (h', list) items := by
  simp only [condReadAvList, ByteReader.bind_ok] at read
  obtain ⟨len, _, count, loop⟩ := read
  have start : ListRead p.teAvtab log other (h, []) [] := by
    constructor
    · simpa using logged
    · exact acceptedAll_nil
    · rfl
    · simp
  obtain ⟨items, same, done⟩ := ByteReader.times_several (ListRead p.teAvtab log other)
    (f := condReadAvItem p other) (fun _ _ _ _ _ read once => condReadAvItem_item read once) start loop
  refine ⟨items, ?_, done⟩
  simp only [readItems, ByteReader.bind_ok]
  exact ⟨len, _, count, same⟩

end Items

section Conds

variable {p p' : Policydb} {image : List CondItems} {bytes rest : List U8}

@[simp] theorem allItems_snoc (c : CondItems) : allItems (image ++ [c]) = allItems image ++ c.items := by
  simp [allItems]

@[simp] theorem allKeys_snoc (c : CondItems) :
    allKeys (image ++ [c]) = allKeys image ++ c.trueItems.flatten ++ c.falseItems.flatten := by
  simp [allKeys, CondItems.items]

theorem condsRead_snoc {te : Avtab} {conds : List CondNode} {c : CondItems} {node : CondNode}
    (read : CondsRead te image conds) (one : NodeRead te (allKeys image) c node)
    (full : ∀ item ∈ c.items, item ≠ []) : CondsRead te (image ++ [c]) (conds ++ [node]) := by
  constructor
  · intro item member
    rw [allItems_snoc] at member
    rcases List.mem_append.mp member with old | new
    · exact read.full item old
    · exact full item new
  · have before : listed (conds ++ [node]) = listed conds ++ (node.trueList ++ node.falseList) := by
      simp [listed]
    rw [before, allItems_snoc, ends_append, read.listed, one.trueList, one.falseList, CondItems.items,
      ends_append]
    simp [allKeys, List.length_append]
  · intro before d after split
    rcases List.eq_nil_or_concat after with rfl | ⟨middle, last, rfl⟩
    · obtain ⟨rfl, same⟩ := List.append_inj' split rfl
      cases same
      exact ⟨node, by simp, one⟩
    · have shorter : image = before ++ d :: middle ∧ c = last := by
        have same : image ++ [c] = (before ++ d :: middle) ++ [last] := by
          rw [split]
          simp
        simpa using List.append_inj' same rfl
      obtain ⟨n, member, placed⟩ := read.each before d middle shorter.1
      exact ⟨n, List.mem_append_left _ member, placed⟩

/-- The table and the conditionals so far. -/
structure SectionRead (te : Avtab) (st : Avtab × List CondNode) (image : List CondItems) : Prop where
  logged : Logged st.1 (allKeys image)
  conds : CondsRead te image st.2

theorem condReadNode_items {st st' : Avtab × List CondNode} (read : SectionRead p.teAvtab st image)
    (once : condReadNode p st bytes = .ok (st', rest)) :
    ∃ c, readCond p bytes = .ok (c, rest) ∧ SectionRead p.teAvtab st' (image ++ [c]) := by
  simp only [condReadNode, ByteReader.bind_ok, ByteReader.pure_ok] at once
  obtain ⟨curState, _, stateRead, len, _, lenRead, expr, _, exprRead, ⟨h₁, trueList⟩, _, trueRead,
    ⟨h₂, falseList⟩, _, falseRead, rfl, rfl⟩ := once
  obtain ⟨trueItems, sameTrue, trues⟩ := condReadAvList_items read.logged trueRead
  obtain ⟨falseItems, sameFalse, falses⟩ := condReadAvList_items trues.logged falseRead
  refine ⟨⟨trueItems, falseItems⟩, ?_, ?_⟩
  · simp only [readCond, ByteReader.bind_ok, ByteReader.pure_ok]
    exact ⟨curState, _, stateRead, len, _, lenRead, expr, _, exprRead, trueItems, _, sameTrue,
      falseItems, _, sameFalse, rfl, rfl⟩
  · constructor
    · rw [allKeys_snoc]
      exact falses.logged
    · apply condsRead_snoc read.conds
      · exact ⟨trues.list, falses.list, trues.accepted, falses.accepted⟩
      · intro item member
        rcases List.mem_append.mp member with inTrue | inFalse
        · exact trues.full item inTrue
        · exact falses.full item inFalse

theorem condReadList_items (read : condReadList p bytes = .ok (p', rest)) :
    ∃ image, readConds p bytes = .ok (image, rest) ∧ Logged p'.teCondAvtab (allKeys image) ∧
      CondsRead p.teAvtab image p'.condList := by
  simp only [condReadList, ByteReader.bind_ok, ByteReader.pure_ok] at read
  obtain ⟨len, _, count, ⟨h, list⟩, _, loop, rfl, rfl⟩ := read
  have start : SectionRead p.teAvtab (avtabAlloc (BitVec.ofNat 32 p.teAvtab.nel), []) [] := by
    constructor
    · exact logged_alloc _
    · constructor
      · simp [allItems]
      · rfl
      · simp
  obtain ⟨image, same, done⟩ := ByteReader.times_several (SectionRead p.teAvtab)
    (f := condReadNode p) (fun _ _ _ _ _ read once => condReadNode_items read once) start loop
  refine ⟨image, ?_, done.logged, done.conds⟩
  simp only [readConds, ByteReader.bind_ok]
  exact ⟨len, _, count, same⟩

end Conds

end Ksrc.Guarantees.CondRuleItems

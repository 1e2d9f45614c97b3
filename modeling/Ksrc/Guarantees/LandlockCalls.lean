import Ksrc.Library.Transition
import Ksrc.Guarantees.LandlockOwners

/-!
# Sequences of calls on Landlock rulesets and domains

Source: `landlock/src/ruleset.c`. Callers own references to rulesets (through files) and to
domains (through credentials). A ruleset may be extended and merged by an owner, a domain may
be the parent of a merge. Every allocation may fail, and freed addresses are given out again.
-/
namespace Ksrc.Guarantees.LandlockCalls

open Library Source LandlockShape LandlockMerge
  LandlockReferences LandlockOwners

structure Callers where
  heap : LandlockHeap
  rulesets : List Nat
  domains : List Nat

inductive Call where
  | create (mask : U16) (new : Nat) (allocs : List Bool)
  | insert (ruleset object : Nat) (access : U16) (allocs : List Bool)
  | merge (parent : Option Nat) (ruleset newDom newHierarchy : Nat) (allocs : List Bool)
  | getRuleset (ruleset : Nat)
  | getDomain (domain : Nat)
  | putRuleset (ruleset : Nat)
  | putDomain (domain : Nat)

/-- What a caller owns, and that memory is given out once. -/
def Call.Owned (s : Callers) : Call → Prop
  | .create _ new _ => s.heap.rulesets.get new = none
  | .insert ruleset _ _ _ => ruleset ∈ s.rulesets
  | .merge parent ruleset newDom newHierarchy _ =>
    (∀ p ∈ parent, p ∈ s.domains) ∧ ruleset ∈ s.rulesets ∧
      s.heap.rulesets.get newDom = none ∧ s.heap.hierarchies.get newHierarchy = none
  | .getRuleset ruleset => ruleset ∈ s.rulesets
  | .getDomain domain => domain ∈ s.domains
  | .putRuleset ruleset => ruleset ∈ s.rulesets
  | .putDomain domain => domain ∈ s.domains

instance (s : Callers) (call : Call) : Decidable (call.Owned s) := by
  cases call <;> unfold Call.Owned <;> infer_instance

/-- A call, its answer and what it leaves; `none` is a use of memory that is not there. -/
def Call.run (color : RbInsertColor) (s : Callers) : Call → Option (Except Refusal Nat × Callers)
  | .create mask new allocs =>
    match (landlockCreateRuleset mask allocs).1 with
    | .error e => some (.error e, s)
    | .ok r =>
      some (.ok new, { s with
        heap := { s.heap with rulesets := s.heap.rulesets.set new r }
        rulesets := new :: s.rulesets })
  | .insert ruleset object access allocs =>
    match s.heap.rulesets.get ruleset with
    | none => none
    | some r =>
      match (landlockInsertRule color r (some object) access allocs).1 with
      | .error e => some (.error e, s)
      | .ok r' =>
        some (.ok 0, { s with heap := { s.heap with rulesets := s.heap.rulesets.set ruleset r' } })
  | .merge parent ruleset newDom newHierarchy allocs =>
    match landlockMergeRuleset color s.heap parent (some ruleset) newDom newHierarchy allocs with
    | none => none
    | some (.error e, heap) => some (.error e, { s with heap })
    | some (.ok dom, heap) => some (.ok dom, { s with heap, domains := dom :: s.domains })
  | .getRuleset ruleset =>
    (landlockGetRuleset s.heap (some ruleset)).map fun heap =>
      (.ok 0, { s with heap, rulesets := ruleset :: s.rulesets })
  | .getDomain domain =>
    (landlockGetRuleset s.heap (some domain)).map fun heap =>
      (.ok 0, { s with heap, domains := domain :: s.domains })
  | .putRuleset ruleset =>
    (landlockPutRuleset s.heap (some ruleset)).map fun heap =>
      (.ok 0, { s with heap, rulesets := s.rulesets.erase ruleset })
  | .putDomain domain =>
    (landlockPutRuleset s.heap (some domain)).map fun heap =>
      (.ok 0, { s with heap, domains := s.domains.erase domain })

def noCallers : Callers :=
  { heap := { rulesets := .empty, hierarchies := .empty }, rulesets := [], domains := [] }

def landlockCalls (color : RbInsertColor) : Machine Callers Call where
  start s := s = noCallers
  step s call := if call.Owned s then (call.run color s).map Prod.snd else none

/-- The references of all owners. -/
def heldBy (s : Callers) : Nat → Nat := fun a => s.rulesets.count a + s.domains.count a

structure CallersOk (s : Callers) : Prop where
  heap : HeapOk (heldBy s) s.heap
  rulesets : ∀ a ∈ s.rulesets, ∀ r, s.heap.rulesets.get a = some r → RulesetShape r
  domains : ∀ a ∈ s.domains, ∀ r, s.heap.rulesets.get a = some r → DomainShape r

/-- Everything reads as before. -/
structure Untouched (s s' : Callers) : Prop where
  rulesets : ∀ a, s'.heap.rulesets.get a = s.heap.rulesets.get a
  hierarchies : ∀ x, s'.heap.hierarchies.get x = s.heap.hierarchies.get x
  owners : s'.rulesets = s.rulesets ∧ s'.domains = s.domains

/-- What every call does: it answers, does not warn, keeps the invariant, and changes nothing
when it fails. -/
def Answers (s : Callers) (answer : Option (Except Refusal Nat × Callers)) : Prop :=
  ∃ result s', answer = some (result, s') ∧ (∀ e, result ≠ .error (.warn e)) ∧ CallersOk s' ∧
    ∀ e, result = .error e → Untouched s s'

variable {s s' : Callers} {a : Nat} {heap : LandlockHeap}

theorem Answers.of_ok {value : Nat} (ok : CallersOk s') :
    Answers s (some (.ok value, s')) := by
  refine ⟨_, _, rfl, ?_, ok, ?_⟩
  · intro e shown
    cases shown
  · intro e shown
    cases shown

theorem Answers.of_error {e : Errno} (ok : CallersOk s') (same : Untouched s s') :
    Answers s (some (.error (.err e), s')) := by
  refine ⟨_, _, rfl, ?_, ok, fun _ _ => same⟩
  intro e shown
  cases shown

theorem Untouched.refl (s : Callers) : Untouched s s := ⟨fun _ => rfl, fun _ => rfl, rfl, rfl⟩

theorem held_of_ruleset (member : a ∈ s.rulesets) : 1 ≤ heldBy s a := by
  have count := List.count_pos_iff.mpr member
  unfold heldBy
  omega

theorem held_of_domain (member : a ∈ s.domains) : 1 ≤ heldBy s a := by
  have count := List.count_pos_iff.mpr member
  unfold heldBy
  omega

theorem count_plus (owners : List Nat) (a x : Nat) :
    (a :: owners).count x = owners.count x + if x = a then 1 else 0 := by
  rw [List.count_cons]
  by_cases here : x = a
  · rw [here, beq_self_eq_true, if_pos rfl, if_pos rfl]
  · have other : (a == x) = false := beq_eq_false_iff_ne.mpr (Ne.symm here)
    rw [other, if_neg here]
    rfl

theorem heldBy_ruleset (s : Callers) (a : Nat) (heap : LandlockHeap) :
    ∀ x, heldBy { s with heap, rulesets := a :: s.rulesets } x = plus (heldBy s) a x := by
  intro x
  unfold heldBy plus
  dsimp only
  rw [count_plus]
  omega

theorem heldBy_domain (s : Callers) (a : Nat) (heap : LandlockHeap) :
    ∀ x, heldBy { s with heap, domains := a :: s.domains } x = plus (heldBy s) a x := by
  intro x
  unfold heldBy plus
  dsimp only
  rw [count_plus]
  omega

theorem count_erase {xs : List Nat} (member : a ∈ xs) (x : Nat) :
    xs.count x = (xs.erase a).count x + if x = a then 1 else 0 := by
  have count := List.count_pos_iff.mpr member
  by_cases here : x = a
  · rw [here, List.count_erase_self, if_pos rfl]
    omega
  · rw [List.count_erase_of_ne here, if_neg here, Nat.add_zero]

theorem heldBy_erase_ruleset (member : a ∈ s.rulesets) (heap : LandlockHeap) :
    ∀ x, heldBy s x = plus (heldBy { s with heap, rulesets := s.rulesets.erase a }) a x := by
  intro x
  unfold heldBy plus
  dsimp only
  rw [count_erase member]
  omega

theorem heldBy_erase_domain (member : a ∈ s.domains) (heap : LandlockHeap) :
    ∀ x, heldBy s x = plus (heldBy { s with heap, domains := s.domains.erase a }) a x := by
  intro x
  unfold heldBy plus
  dsimp only
  rw [count_erase member]
  omega

/-- Owners' shapes survive where only use counts change. -/
theorem shapes_later (ok : CallersOk s) (later : Later s.heap heap) :
    (∀ a ∈ s.rulesets, ∀ r, heap.rulesets.get a = some r → RulesetShape r) ∧
      ∀ a ∈ s.domains, ∀ r, heap.rulesets.get a = some r → DomainShape r := by
  constructor
  · intro a member r here
    obtain ⟨old, isOld, same⟩ := later.rulesets a r here
    have shape := ok.rulesets a member old isOld
    rw [same]
    exact ⟨⟨shape.ordered, shape.counted, shape.bounded⟩, shape.plain, shape.one_mask, shape.rules⟩
  · intro a member r here
    obtain ⟨old, isOld, same⟩ := later.rulesets a r here
    have shape := ok.domains a member old isOld
    rw [same]
    exact ⟨⟨shape.ordered, shape.counted, shape.bounded⟩, shape.in_hierarchy, shape.some_mask,
      shape.mask_limit, shape.rules⟩

theorem create_answers (color : RbInsertColor) (ok : CallersOk s) {mask : U16} {new : Nat}
    {allocs : List Bool} (owned : (Call.create mask new allocs).Owned s) :
    Answers s ((Call.create mask new allocs).run color s) := by
  unfold Call.run
  dsimp only
  split
  · rename_i e failed
    obtain ⟨errno, rfl⟩ := landlockCreateRuleset_error failed
    exact .of_error ok (.refl s)
  · rename_i r made
    obtain ⟨shape, usage, -, -⟩ := landlockCreateRuleset_shape made
    apply Answers.of_ok
    constructor
    · exact (ok.heap.create owned shape usage).congr (heldBy_ruleset s new _)
    · intro a member q here
      dsimp only at here
      rcases Heap.set_cases here with ⟨-, rfl⟩ | ⟨other, here⟩
      · exact shape
      · rcases List.mem_cons.mp member with isNew | old
        · exact absurd isNew other
        · exact ok.rulesets a old q here
    · intro a member q here
      dsimp only at here
      rcases Heap.set_cases here with ⟨isNew, -⟩ | ⟨-, here⟩
      · obtain ⟨d, isDom⟩ := ok.heap.owned a (held_of_domain member)
        have absent : s.heap.rulesets.get new = none := owned
        rw [isNew, absent] at isDom
        cases isDom
      · exact ok.domains a member q here

theorem insert_answers (color : RbInsertColor) (ok : CallersOk s) {ruleset object : Nat}
    {access : U16} {allocs : List Bool}
    (owned : (Call.insert ruleset object access allocs).Owned s) :
    Answers s ((Call.insert ruleset object access allocs).run color s) := by
  have member : ruleset ∈ s.rulesets := owned
  obtain ⟨r, here⟩ := ok.heap.owned ruleset (held_of_ruleset member)
  have before := ok.rulesets ruleset member r here
  unfold Call.run
  simp only [here]
  rcases landlockInsertRule_effect color before object access allocs with
    ⟨e, failed⟩ | ⟨r', done, shape, placed⟩
  · rw [failed]
    exact .of_error ok (.refl s)
  · rw [done]
    apply Answers.of_ok
    constructor
    · exact ok.heap.insert here before shape placed.usage
    · intro a inside q at'
      dsimp only at at'
      rcases Heap.set_cases at' with ⟨-, rfl⟩ | ⟨-, at'⟩
      · exact shape
      · exact ok.rulesets a inside q at'
    · intro a inside q at'
      dsimp only at at'
      rcases Heap.set_cases at' with ⟨isRuleset, -⟩ | ⟨-, at'⟩
      · have domain := ok.domains a inside r (isRuleset ▸ here)
        exact absurd before.plain domain.in_hierarchy
      · exact ok.domains a inside q at'

theorem merge_ready (ok : CallersOk s) {parent : Option Nat} {ruleset newDom newHierarchy : Nat}
    {allocs : List Bool}
    (owned : (Call.merge parent ruleset newDom newHierarchy allocs).Owned s) :
    MergeReady (heldBy s) s.heap parent ruleset newDom newHierarchy := by
  obtain ⟨ofParent, ofRuleset, freshDom, freshHierarchy⟩ := owned
  constructor
  · intro p isParent
    exact held_of_domain (ofParent p isParent)
  · intro p d isParent here
    exact ok.domains p (ofParent p isParent) d here
  · exact held_of_ruleset ofRuleset
  · exact ok.rulesets ruleset ofRuleset
  · exact freshDom
  · exact freshHierarchy

theorem merge_answers (color : RbInsertColor) (ok : CallersOk s) {parent : Option Nat}
    {ruleset newDom newHierarchy : Nat} {allocs : List Bool}
    (owned : (Call.merge parent ruleset newDom newHierarchy allocs).Owned s) :
    Answers s ((Call.merge parent ruleset newDom newHierarchy allocs).run color s) := by
  have ready := merge_ready ok owned
  obtain ⟨r, here⟩ := ok.heap.owned ruleset ready.rulesetOwner
  obtain ⟨result, heap, done, effect⟩ :=
    landlockMergeRuleset_effect color allocs ok.heap ready here
  unfold Call.run
  simp only [done]
  cases effect with
  | failed e hs reads heapOk =>
    have same : Untouched s { s with heap := { s.heap with hierarchies := hs } } :=
      ⟨fun _ => rfl, reads, rfl, rfl⟩
    exact .of_error ⟨heapOk, ok.rulesets, ok.domains⟩ same
  | made dom hs merged grown reads heapOk =>
    apply Answers.of_ok
    constructor
    · exact heapOk.congr (heldBy_domain s newDom _)
    · intro a member q at'
      dsimp only at at' member
      rcases Heap.set_cases at' with ⟨isNew, -⟩ | ⟨-, at'⟩
      · obtain ⟨old, isOld⟩ := ok.heap.owned a (held_of_ruleset member)
        rw [isNew, ready.freshDom] at isOld
        cases isOld
      · exact ok.rulesets a member q at'
    · intro a member q at'
      dsimp only at at' member
      rcases Heap.set_cases at' with ⟨-, rfl⟩ | ⟨other, at'⟩
      · exact merged.shape
      · rcases List.mem_cons.mp member with isNew | old
        · exact absurd isNew other
        · exact ok.domains a old q at'

theorem getRuleset_answers (color : RbInsertColor) (ok : CallersOk s) {ruleset : Nat}
    (owned : (Call.getRuleset ruleset).Owned s) :
    Answers s ((Call.getRuleset ruleset).run color s) := by
  obtain ⟨heap, done, heapOk, later⟩ := ok.heap.get (held_of_ruleset owned)
  obtain ⟨rulesets, domains⟩ := shapes_later ok later
  unfold Call.run
  simp only [done, Option.map_some]
  apply Answers.of_ok
  refine ⟨heapOk.congr (heldBy_ruleset s ruleset heap), fun a member => ?_, domains⟩
  rcases List.mem_cons.mp member with rfl | old
  · exact rulesets a owned
  · exact rulesets a old

theorem getDomain_answers (color : RbInsertColor) (ok : CallersOk s) {domain : Nat}
    (owned : (Call.getDomain domain).Owned s) :
    Answers s ((Call.getDomain domain).run color s) := by
  obtain ⟨heap, done, heapOk, later⟩ := ok.heap.get (held_of_domain owned)
  obtain ⟨rulesets, domains⟩ := shapes_later ok later
  unfold Call.run
  simp only [done, Option.map_some]
  apply Answers.of_ok
  refine ⟨heapOk.congr (heldBy_domain s domain heap), rulesets, fun a member => ?_⟩
  rcases List.mem_cons.mp member with rfl | old
  · exact domains a owned
  · exact domains a old

theorem putRuleset_answers (color : RbInsertColor) (ok : CallersOk s) {ruleset : Nat}
    (owned : (Call.putRuleset ruleset).Owned s) :
    Answers s ((Call.putRuleset ruleset).run color s) := by
  have member : ruleset ∈ s.rulesets := owned
  have counted := ok.heap.congr fun x => (heldBy_erase_ruleset member s.heap x).symm
  obtain ⟨heap, done, heapOk, later⟩ := counted.put
  obtain ⟨rulesets, domains⟩ := shapes_later ok later
  unfold Call.run
  simp only [done, Option.map_some]
  apply Answers.of_ok
  exact ⟨heapOk, fun a inside => rulesets a (List.mem_of_mem_erase inside), domains⟩

theorem putDomain_answers (color : RbInsertColor) (ok : CallersOk s) {domain : Nat}
    (owned : (Call.putDomain domain).Owned s) :
    Answers s ((Call.putDomain domain).run color s) := by
  have member : domain ∈ s.domains := owned
  have counted := ok.heap.congr fun x => (heldBy_erase_domain member s.heap x).symm
  obtain ⟨heap, done, heapOk, later⟩ := counted.put
  obtain ⟨rulesets, domains⟩ := shapes_later ok later
  unfold Call.run
  simp only [done, Option.map_some]
  apply Answers.of_ok
  exact ⟨heapOk, rulesets, fun a inside => domains a (List.mem_of_mem_erase inside)⟩

/-- Every call of an owner. -/
theorem call_answers (color : RbInsertColor) (ok : CallersOk s) (call : Call)
    (owned : call.Owned s) : Answers s (call.run color s) := by
  cases call with
  | create mask new allocs => exact create_answers color ok owned
  | insert ruleset object access allocs => exact insert_answers color ok owned
  | merge parent ruleset newDom newHierarchy allocs => exact merge_answers color ok owned
  | getRuleset ruleset => exact getRuleset_answers color ok owned
  | getDomain domain => exact getDomain_answers color ok owned
  | putRuleset ruleset => exact putRuleset_answers color ok owned
  | putDomain domain => exact putDomain_answers color ok owned

theorem noCallers_ok : CallersOk noCallers := by
  constructor
  · constructor
    · intro a r here
      cases here
    · intro a r here
      cases here
    · intro a owner
      cases owner
    · constructor
      · intro x node here
        cases here
      · intro x some
        cases some
      · intro x node p here
        cases here
    · intro a d x here
      cases here
  · intro a member
    cases member
  · intro a member
    cases member

theorem reachable_ok (color : RbInsertColor)
    (reached : (landlockCalls color).Reachable Machine.free s) : CallersOk s := by
  refine reached.invariant ?_ ?_
  · rintro s rfl
    exact noCallers_ok
  · intro s call s' ok _ stepped
    unfold landlockCalls at stepped
    dsimp only at stepped
    split at stepped
    · rename_i owned
      obtain ⟨result, after, answer, -, kept, -⟩ := call_answers color ok call owned
      rw [answer] at stepped
      cases stepped
      exact kept
    · cases stepped

/-- The rulesets and domains of every run keep their shapes; no call of an owner faults or
reaches a warning, and one that fails leaves everything as it was. -/
theorem rulesets_represented (color : RbInsertColor)
    (reached : (landlockCalls color).Reachable Machine.free s) :
    (∀ a r, s.heap.rulesets.get a = some r →
      a ∈ s.rulesets ∧ RulesetShape r ∨ a ∈ s.domains ∧ DomainShape r) ∧
    ∀ call : Call, call.Owned s → ∃ result s', call.run color s = some (result, s') ∧
      (∀ e, result ≠ .error (.warn e)) ∧ ∀ e, result = .error e → Untouched s s' := by
  have ok := reachable_ok color reached
  constructor
  · intro a r here
    have owner := (ok.heap.used a r here).2
    unfold heldBy at owner
    by_cases member : a ∈ s.rulesets
    · exact .inl ⟨member, ok.rulesets a member r here⟩
    · have none := List.count_eq_zero.mpr member
      have member : a ∈ s.domains := List.count_pos_iff.mp (by omega)
      exact .inr ⟨member, ok.domains a member r here⟩
  · intro call owned
    obtain ⟨result, s', answer, quiet, -, same⟩ := call_answers color ok call owned
    exact ⟨result, s', answer, quiet, same⟩

/-- A ruleset with a rule, merged twice, the second time without memory for a rule. -/
def mergedTwice : List Call :=
  [.create 5 100 [], .insert 100 7 4 [], .merge none 100 101 200 [],
    .merge (some 101) 100 102 201 [true, true, false], .putDomain 101]

theorem rulesets_represented_merged : ∃ s, (landlockCalls .id).exec noCallers mergedTwice = some s ∧
    (∀ a r, s.heap.rulesets.get a = some r →
      a ∈ s.rulesets ∧ RulesetShape r ∨ a ∈ s.domains ∧ DomainShape r) ∧
    ∀ call : Call, call.Owned s → ∃ result s', call.run .id s = some (result, s') ∧
      (∀ e, result ≠ .error (.warn e)) ∧ ∀ e, result = .error e → Untouched s s' := by
  obtain ⟨s, ran⟩ := Option.isSome_iff_exists.mp
    (show ((landlockCalls .id).exec noCallers mergedTwice).isSome = true by decide)
  have reached : (landlockCalls .id).Reachable Machine.free s :=
    ⟨noCallers, rfl, Machine.exec_reaches ran⟩
  exact ⟨s, ran, rulesets_represented .id reached⟩

end Ksrc.Guarantees.LandlockCalls

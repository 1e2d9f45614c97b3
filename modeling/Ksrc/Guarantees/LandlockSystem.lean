import Ksrc.Library.Transition
import Ksrc.Guarantees.LandlockOwners
import Ksrc.Source.LandlockTasks

/-!
# Tasks under Landlock

Source: `landlock/src/syscalls.c`, `cred.c`. The owners of rulesets are open files, those of
domains the credentials of tasks and credentials that wait to be freed. Every action keeps
the heap in order and says what becomes of the domains that were there.
-/
namespace Ksrc.Guarantees.LandlockSystem

open Library Source LandlockShape LandlockMerge
  LandlockReferences LandlockOwners

/-- When an action can happen: on what exists, with memory that is given out once. -/
def Enabled (s : LandlockSystem) : LandlockAct → Prop
  | .createRuleset _ new _ => s.heap.rulesets.get new = none
  | .addRule ruleset _ _ _ _ => ruleset ∈ s.files
  | .closeRuleset ruleset => ruleset ∈ s.files
  | .restrictSelf task ruleset newDom newHierarchy _ _ =>
    s.tasks.get task ≠ none ∧ ruleset ∈ s.files ∧ s.heap.rulesets.get newDom = none ∧
      s.heap.hierarchies.get newHierarchy = none
  | .fork task child => s.tasks.get task ≠ none ∧ s.tasks.get child = none
  | .exit task => s.tasks.get task ≠ none
  | .freeCred domain => domain ∈ s.dying

instance (s : LandlockSystem) (act : LandlockAct) : Decidable (Enabled s act) := by
  cases act <;> unfold Enabled <;> infer_instance

/-- The tasks with a domain. -/
def tasksIn (tasks : Heap (Option Nat)) (a : Nat) : Nat := tasks.count fun _ d => d == some a

def heldIn (s : LandlockSystem) : Nat → Nat :=
  fun a => s.files.count a + tasksIn s.tasks a + s.dying.count a

/-- The right to refer as a bit. -/
def referBit (access : U16) : Bool := access.getLsbD 13

/-- A rule grants the right to refer only in layers whose ruleset listed it as handled. -/
def ReferListed (r : LandlockRuleset) : Prop :=
  ∀ object layers, layersAt r object = some layers → ∀ l ∈ layers, referBit l.access = true →
    ∃ mask, r.fsAccessMasks[l.level.toNat - 1]? = some mask ∧ referBit mask = true

structure SystemOk (s : LandlockSystem) : Prop where
  heap : HeapOk (heldIn s) s.heap
  files : ∀ a ∈ s.files, ∀ r, s.heap.rulesets.get a = some r → RulesetShape r
  tasks : ∀ t a, s.tasks.get t = some (some a) → ∀ r, s.heap.rulesets.get a = some r → DomainShape r
  dying : ∀ a ∈ s.dying, ∀ r, s.heap.rulesets.get a = some r → DomainShape r
  refer : ∀ a r, s.heap.rulesets.get a = some r → ReferListed r

/-- The domains that are there were there before, up to use counts. -/
structure DomainsKept (h h' : LandlockHeap) : Prop where
  domains : ∀ a d x, h'.rulesets.get a = some d → d.hierarchy = some x →
    ∃ d₀, h.rulesets.get a = some d₀ ∧ d = { d₀ with usage := d.usage }
  nodes : Kept h.hierarchies h'.hierarchies

variable {s s' : LandlockSystem} {h h' : LandlockHeap} {held : Nat → Nat} {a : Nat}
  {r r' : LandlockRuleset}

theorem domainsKept_of_later (later : Later h h') : DomainsKept h h' :=
  ⟨fun a d _ here _ => later.rulesets a d here, later.nodes⟩

section Counts

theorem tasksIn_pos {t : Nat} (here : s.tasks.get t = some (some a)) : 1 ≤ tasksIn s.tasks a :=
  Heap.counts_pos _ here (beq_self_eq_true _)

theorem held_of_file (member : a ∈ s.files) : 1 ≤ heldIn s a := by
  have count := List.count_pos_iff.mpr member
  unfold heldIn
  omega

theorem held_of_task {t : Nat} (here : s.tasks.get t = some (some a)) : 1 ≤ heldIn s a := by
  have count := tasksIn_pos here
  unfold heldIn
  omega

theorem held_of_dying (member : a ∈ s.dying) : 1 ≤ heldIn s a := by
  have count := List.count_pos_iff.mpr member
  unfold heldIn
  omega

/-- References to what an optional pointer points to. -/
def plusOpt (held : Nat → Nat) (domain : Option Nat) : Nat → Nat :=
  match domain with
  | some a => plus held a
  | none => held

theorem plusOpt_eq (held : Nat → Nat) (domain : Option Nat) (x : Nat) :
    plusOpt held domain x = held x + if domain = some x then 1 else 0 := by
  cases domain with
  | none => simp only [plusOpt, reduceCtorEq, if_false, Nat.add_zero]
  | some a => simp only [plusOpt, plus, Option.some.injEq, eq_comm]

theorem count_cons (owners : List Nat) (a x : Nat) :
    (a :: owners).count x = owners.count x + if a = x then 1 else 0 := by
  rw [List.count_cons]
  simp only [beq_iff_eq]

theorem count_toList (domain : Option Nat) (owners : List Nat) (x : Nat) :
    (domain.toList ++ owners).count x = owners.count x + if domain = some x then 1 else 0 := by
  cases domain with
  | none => simp only [Option.toList_none, List.nil_append, reduceCtorEq, if_false, Nat.add_zero]
  | some a =>
    simp only [Option.toList_some, List.cons_append, List.nil_append, count_cons,
      Option.some.injEq]

theorem count_erase {owners : List Nat} (member : a ∈ owners) (x : Nat) :
    owners.count x = (owners.erase a).count x + if a = x then 1 else 0 := by
  have count := List.count_pos_iff.mpr member
  by_cases here : a = x
  · rw [if_pos here, ← here, List.count_erase_self]
    omega
  · rw [if_neg here, List.count_erase_of_ne (Ne.symm here), Nat.add_zero]

theorem tasksIn_set {tasks : Heap (Option Nat)} {t : Nat} {old : Option Nat}
    (new : Option Nat) (x : Nat) (here : tasks.get t = some old) :
    tasksIn (tasks.set t new) x + (if old = some x then 1 else 0) =
      tasksIn tasks x + if new = some x then 1 else 0 := by
  have counted := Heap.count_set (fun _ (d : Option Nat) => d == some x) tasks t new
  unfold Heap.counts at counted
  rw [here] at counted
  simp only [beq_iff_eq] at counted
  exact counted

theorem tasksIn_add {tasks : Heap (Option Nat)} {t : Nat} (new : Option Nat) (x : Nat)
    (fresh : tasks.get t = none) :
    tasksIn (tasks.set t new) x = tasksIn tasks x + if new = some x then 1 else 0 := by
  have counted := Heap.count_set (fun _ (d : Option Nat) => d == some x) tasks t new
  unfold Heap.counts at counted
  rw [fresh] at counted
  simp only [beq_iff_eq] at counted
  exact counted

theorem tasksIn_free {tasks : Heap (Option Nat)} {t : Nat} {old : Option Nat} (x : Nat)
    (here : tasks.get t = some old) :
    tasksIn tasks x = tasksIn (tasks.free t) x + if old = some x then 1 else 0 := by
  have counted := Heap.count_free (fun _ (d : Option Nat) => d == some x) tasks t
  unfold Heap.counts at counted
  rw [here] at counted
  simp only [beq_iff_eq] at counted
  exact counted.symm

end Counts

section Optional

theorem HeapOk.getOpt (ok : HeapOk held h) {domain : Option Nat}
    (owner : ∀ a, domain = some a → 1 ≤ held a) :
    ∃ h', landlockGetRuleset h domain = some h' ∧ HeapOk (plusOpt held domain) h' ∧ Later h h' := by
  cases domain with
  | none => exact ⟨h, rfl, ok, .refl h⟩
  | some a => exact ok.get (owner a rfl)

theorem HeapOk.putOpt {domain : Option Nat} (ok : HeapOk (plusOpt held domain) h) :
    ∃ h', landlockPutRuleset h domain = some h' ∧ HeapOk held h' ∧ Later h h' := by
  cases domain with
  | none => exact ⟨h, rfl, ok, .refl h⟩
  | some a => exact ok.put

end Optional

section Refer

theorem ReferListed.reused (listed : ReferListed r) (usage : Nat) :
    ReferListed { r with usage := usage } := listed

theorem refer_later (refer : ∀ a r, h.rulesets.get a = some r → ReferListed r)
    (later : Later h h') : ∀ a r, h'.rulesets.get a = some r → ReferListed r := by
  intro a r here
  obtain ⟨old, isOld, same⟩ := later.rulesets a r here
  rw [same]
  exact (refer a old isOld).reused r.usage

theorem referListed_created (empty : r.root = .nil) : ReferListed r := by
  intro object layers here
  unfold layersAt at here
  rw [empty] at here
  cases here

/-- The access `landlock_append_fs_rule` inserts has the right to refer only as it is asked. -/
theorem absolute_refer (access mask : U16) : referBit (access |||
    (landlockMaskAccessFs &&& ~~~(mask ||| accessInitiallyDenied))) = referBit access := by
  unfold referBit
  rw [BitVec.getLsbD_or, BitVec.getLsbD_and, BitVec.getLsbD_not, BitVec.getLsbD_or]
  have denied : accessInitiallyDenied.getLsbD 13 = true := by decide
  simp only [denied, Bool.or_true, Bool.not_true, Bool.and_false, Bool.or_false]

/-- An accepted access is among the handled ones. -/
theorem accepted_refer {access : U64} {mask : U16}
    (accepted : access ||| mask.setWidth 64 = mask.setWidth 64)
    (refers : referBit (access.setWidth 16) = true) : referBit mask = true := by
  unfold referBit at refers ⊢
  have bit := congrArg (fun word : U64 => word.getLsbD 13) accepted
  simp only [BitVec.getLsbD_or, BitVec.getLsbD_setWidth] at bit refers
  simp only [Nat.reduceLT, decide_true, Bool.true_and] at bit refers
  rw [refers, Bool.true_or] at bit
  exact bit.symm

theorem referListed_placed (listed : ReferListed r) (shape : RulesetShape r) {object : Nat}
    {access mask : U16} (masks : r.fsAccessMasks = [mask])
    (handled : referBit access = true → referBit mask = true)
    (placed : Placed r r' object (combine (layersAt r object) [⟨0, access⟩])) :
    ReferListed r' := by
  intro k layers here l member refers
  rw [placed.masks]
  rw [placed.stack] at here
  split at here
  · cases here
    refine ⟨mask, ?_, ?_⟩
    · have level : l.level = 0 := by
        cases old : layersAt r object with
        | none =>
          rw [old] at member
          rw [List.mem_singleton.mp member]
        | some layers =>
          obtain ⟨before, one⟩ := (rules_iff shape.toTreeShape).mp shape.rules object layers old
          rw [old, one] at member
          rw [List.mem_singleton.mp member]
      rw [level, masks]
      rfl
    · cases old : layersAt r object with
      | none =>
        rw [old] at member
        rw [List.mem_singleton.mp member] at refers
        exact handled refers
      | some layers =>
        obtain ⟨before, one⟩ := (rules_iff shape.toTreeShape).mp shape.rules object layers old
        rw [old, one] at member
        rw [List.mem_singleton.mp member] at refers
        change (before ||| access).getLsbD 13 = true at refers
        rw [BitVec.getLsbD_or, Bool.or_eq_true] at refers
        rcases refers with inOld | inNew
        · obtain ⟨mask', isMask, inMask⟩ := listed object layers old ⟨0, before⟩
            (by rw [one]; exact List.mem_cons_self) inOld
          rw [masks] at isMask
          cases isMask
          exact inMask
        · exact handled inNew
  · exact listed k layers here l member refers

theorem referListed_merged {parent : Option LandlockRuleset} {ruleset dom : LandlockRuleset}
    {newHierarchy : Nat} (merged : Merged parent ruleset dom newHierarchy)
    (shape : ∀ p, parent = some p → DomainShape p) (plain : RulesetShape ruleset)
    (parentListed : ∀ p, parent = some p → ReferListed p) (listed : ReferListed ruleset) :
    ReferListed dom := by
  have limit := merged.shape.mask_limit
  have single := plain.one_mask
  unfold LandlockRuleset.numLayers at limit single
  rw [merged.masks, List.length_append, single] at limit
  intro object layers here l member refers
  rw [merged.stack] at here
  rw [merged.masks]
  have lower : ∀ old, parentLayersAt parent object = some old → l ∈ old →
      ∃ mask, (masksOf parent ++ ruleset.fsAccessMasks)[l.level.toNat - 1]? = some mask ∧
        referBit mask = true := by
    intro old isOld inside
    cases isParent : parent with
    | none =>
      rw [isParent] at isOld
      cases isOld
    | some p =>
      rw [isParent] at isOld
      obtain ⟨mask, isMask, inMask⟩ := parentListed p isParent object old isOld l inside refers
      refine ⟨mask, ?_, inMask⟩
      rw [List.getElem?_append_left]
      · exact isMask
      · have within := (stacked_layersAt (shape p isParent) isOld).within l inside
        have length : (masksOf (some p)).length = p.numLayers := rfl
        omega
  unfold stackedOn at here
  split at here
  · rename_i first rest isNew
    cases here
    rcases List.mem_append.mp member with inOld | isTop
    · cases isOld : parentLayersAt parent object with
      | none =>
        rw [isOld] at inOld
        cases inOld
      | some old =>
        rw [isOld] at inOld
        exact lower old isOld inOld
    · rw [List.mem_singleton.mp isTop] at refers ⊢
      obtain ⟨mask, isMask, inMask⟩ := listed object _ isNew first List.mem_cons_self refers
      obtain ⟨access, one⟩ := (rules_iff plain.toTreeShape).mp plain.rules object _ isNew
      cases one
      refine ⟨mask, ?_, inMask⟩
      rw [level_toNat limit, Nat.add_sub_cancel, List.getElem?_append_right (Nat.le_refl _),
        Nat.sub_self]
      exact isMask
  · exact lower layers here member

end Refer

section Actions

/-- Actions on files and on credentials that no task has. -/
def Quiet : LandlockAct → Prop
  | .createRuleset _ _ _ => True
  | .addRule _ _ _ _ _ => True
  | .closeRuleset _ => True
  | .freeCred _ => True
  | _ => False

/-- What a successful `landlock_restrict_self` did: it took its references, merged, and dropped
the references. -/
structure Restricted (s s' : LandlockSystem) (task newDom newHierarchy : Nat) (domain : Option Nat)
    (h₂ : LandlockHeap) (r dom : LandlockRuleset) (hs : Hierarchies) : Prop where
  here : s.tasks.get task = some domain
  before : Later s.heap h₂
  plain : RulesetShape r
  parents : ∀ p, parentAt h₂ domain = some p → DomainShape p
  owned : ∀ a, domain = some a → ∃ p, h₂.rulesets.get a = some p
  live : ∀ x, hierarchyOf (parentAt h₂ domain) = some x → ∃ node, h₂.hierarchies.get x = some node
  freshDom : s.heap.rulesets.get newDom = none
  fresh : s.heap.hierarchies.get newHierarchy = none
  merged : Merged (parentAt h₂ domain) r dom newHierarchy
  reads : ∀ x, hs.get x =
    (linked h₂.hierarchies (hierarchyOf (parentAt h₂ domain)) newHierarchy).get x
  after : Later { rulesets := h₂.rulesets.set newDom dom, hierarchies := hs } s'.heap
  tasks : s'.tasks = s.tasks.set task (some newDom)

/-- What became of the domains and the tasks. -/
inductive Outcome (s s' : LandlockSystem) : LandlockAct → Except Refusal Nat → Prop
  | failed (act : LandlockAct) (e : Errno) (kept : DomainsKept s.heap s'.heap)
      (tasks : s'.tasks = s.tasks) : Outcome s s' act (.error (.err e))
  | quiet (act : LandlockAct) (value : Nat) (isQuiet : Quiet act)
      (kept : DomainsKept s.heap s'.heap) (tasks : s'.tasks = s.tasks) :
      Outcome s s' act (.ok value)
  | forked (task child : Nat) (domain : Option Nat) (here : s.tasks.get task = some domain)
      (kept : DomainsKept s.heap s'.heap) (tasks : s'.tasks = s.tasks.set child domain) :
      Outcome s s' (.fork task child) (.ok child)
  | exited (task : Nat) (kept : DomainsKept s.heap s'.heap) (tasks : s'.tasks = s.tasks.free task) :
      Outcome s s' (.exit task) (.ok 0)
  | restricted (task ruleset newDom newHierarchy : Nat) (allocs : List Bool) (domain : Option Nat)
      (h₂ : LandlockHeap) (r dom : LandlockRuleset) (hs : Hierarchies)
      (did : Restricted s s' task newDom newHierarchy domain h₂ r dom hs) :
      Outcome s s' (.restrictSelf task ruleset newDom newHierarchy true allocs) (.ok newDom)

/-- An action neither faults nor warns, keeps the system in order and has its outcome. -/
def Does (s : LandlockSystem) (act : LandlockAct)
    (answer : Option (Except Refusal Nat × LandlockSystem)) : Prop :=
  ∃ result s', answer = some (result, s') ∧ SystemOk s' ∧ Outcome s s' act result

theorem shape_later {p : LandlockRuleset → Prop} (reused : ∀ r usage, p r → p { r with usage := usage })
    (before : ∀ r, h.rulesets.get a = some r → p r) (later : Later h h') :
    ∀ r, h'.rulesets.get a = some r → p r := by
  intro r here
  obtain ⟨old, isOld, same⟩ := later.rulesets a r here
  rw [same]
  exact reused old r.usage (before old isOld)

theorem rulesetShape_reused (r : LandlockRuleset) (usage : Nat) (shape : RulesetShape r) :
    RulesetShape { r with usage := usage } :=
  ⟨⟨shape.ordered, shape.counted, shape.bounded⟩, shape.plain, shape.one_mask, shape.rules⟩

theorem domainShape_reused (r : LandlockRuleset) (usage : Nat) (shape : DomainShape r) :
    DomainShape { r with usage := usage } :=
  ⟨⟨shape.ordered, shape.counted, shape.bounded⟩, shape.in_hierarchy, shape.some_mask,
    shape.mask_limit, shape.rules⟩

/-- The system after an action that only gets and puts references. -/
theorem SystemOk.later (ok : SystemOk s) (heap : HeapOk (heldIn s') s'.heap)
    (later : Later s.heap s'.heap) (files : ∀ a ∈ s'.files, a ∈ s.files)
    (tasks : ∀ t a, s'.tasks.get t = some (some a) → ∃ t', s.tasks.get t' = some (some a))
    (dying : ∀ a ∈ s'.dying, a ∈ s.dying ∨ ∃ t, s.tasks.get t = some (some a)) : SystemOk s' := by
  constructor
  · exact heap
  · intro a member
    exact shape_later rulesetShape_reused (ok.files a (files a member)) later
  · intro t a here
    obtain ⟨t', before⟩ := tasks t a here
    exact shape_later domainShape_reused (ok.tasks t' a before) later
  · intro a member
    rcases dying a member with before | ⟨t, before⟩
    · exact shape_later domainShape_reused (ok.dying a before) later
    · exact shape_later domainShape_reused (ok.tasks t a before) later
  · exact refer_later ok.refer later

theorem createRuleset_does (color : RbInsertColor) (ok : SystemOk s) {handled : U64} {new : Nat}
    {allocs : List Bool} (enabled : Enabled s (.createRuleset handled new allocs)) :
    Does s (.createRuleset handled new allocs)
      ((LandlockAct.createRuleset handled new allocs).run color s) := by
  have fresh : s.heap.rulesets.get new = none := enabled
  have same : DomainsKept s.heap s.heap := domainsKept_of_later (Later.refl s.heap)
  unfold LandlockAct.run sysLandlockCreateRuleset
  dsimp only
  split
  · rename_i e failed
    split at failed
    · cases failed
      exact ⟨_, _, rfl, ok, .failed _ _ same rfl⟩
    · obtain ⟨errno, rfl⟩ := landlockCreateRuleset_error failed
      exact ⟨_, _, rfl, ok, .failed _ _ same rfl⟩
  · rename_i r made
    split at made
    · cases made
    · obtain ⟨shape, usage, masks, empty⟩ := landlockCreateRuleset_shape made
      have elsewhere : ∀ a q, 1 ≤ heldIn s a → (s.heap.rulesets.set new r).get a = some q →
          s.heap.rulesets.get a = some q := by
        intro a q owner here
        rcases Heap.set_cases here with ⟨isNew, -⟩ | ⟨-, here⟩
        · obtain ⟨old, isOld⟩ := ok.heap.owned a owner
          rw [isNew, fresh] at isOld
          cases isOld
        · exact here
      refine ⟨_, _, rfl, ⟨?_, ?_, ?_, ?_, ?_⟩, .quiet _ _ trivial ⟨?_, .refl _⟩ rfl⟩
      · refine (ok.heap.create fresh shape usage).congr fun x => ?_
        unfold heldIn plus
        dsimp only
        rw [count_cons]
        simp only [eq_comm]
        omega
      · intro a member q here
        rcases List.mem_cons.mp member with rfl | old
        · dsimp only at here
          rw [Heap.get_set_same] at here
          cases here
          exact shape
        · exact ok.files a old q (elsewhere a q (held_of_file old) here)
      · intro t a atTask q here
        exact ok.tasks t a atTask q (elsewhere a q (held_of_task atTask) here)
      · intro a member q here
        exact ok.dying a member q (elsewhere a q (held_of_dying member) here)
      · intro a q here
        dsimp only at here
        rcases Heap.set_cases here with ⟨-, rfl⟩ | ⟨-, here⟩
        · exact referListed_created empty
        · exact ok.refer a q here
      · intro a d x here isNode
        dsimp only at here
        rcases Heap.set_cases here with ⟨-, rfl⟩ | ⟨-, here⟩
        · rw [shape.plain] at isNode
          cases isNode
        · exact ⟨d, here, rfl⟩

/-- An accepted rule goes into the ruleset with the access that was asked for, made absolute. -/
theorem sysLandlockAddRule_effect (color : RbInsertColor) (shape : RulesetShape r)
    (listed : ReferListed r) (access : U64) (file : Option OpenFile) (object : Except Errno Nat)
    (allocs : List Bool) :
    (∃ e, sysLandlockAddRule color r access file object allocs = .error (.err e)) ∨
      ∃ r', sysLandlockAddRule color r access file object allocs = .ok r' ∧ RulesetShape r' ∧
        ReferListed r' ∧ r'.usage = r.usage := by
  obtain ⟨mask, masks⟩ := List.length_eq_one_iff.mp shape.one_mask
  unfold sysLandlockAddRule
  dsimp only
  split
  · exact .inl ⟨_, rfl⟩
  · split
    · exact .inl ⟨_, rfl⟩
    · rename_i accepted
      rw [not_not, masks] at accepted
      split
      · exact .inl ⟨_, rfl⟩
      · unfold landlockAppendFsRule
        split
        · exact .inl ⟨_, rfl⟩
        · rw [if_neg (not_not.mpr shape.one_mask)]
          dsimp only
          cases object with
          | error e => exact .inl ⟨e, rfl⟩
          | ok object =>
            dsimp only
            have effect := landlockInsertRule_effect color shape object (access.setWidth 16 |||
              (landlockMaskAccessFs &&& ~~~(r.fsAccessMasks.headD 0 ||| accessInitiallyDenied)))
              allocs
            refine effect.imp_right fun ⟨r', done, shape', placed⟩ =>
              ⟨r', done, shape', ?_, placed.usage⟩
            refine referListed_placed listed shape masks (fun refers => ?_) placed
            rw [absolute_refer] at refers
            exact accepted_refer accepted refers

theorem addRule_does (color : RbInsertColor) (ok : SystemOk s) {ruleset : Nat} {access : U64}
    {file : Option OpenFile} {object : Except Errno Nat} {allocs : List Bool}
    (enabled : Enabled s (.addRule ruleset access file object allocs)) :
    Does s (.addRule ruleset access file object allocs)
      ((LandlockAct.addRule ruleset access file object allocs).run color s) := by
  have member : ruleset ∈ s.files := enabled
  obtain ⟨r, here⟩ := ok.heap.owned ruleset (held_of_file member)
  have shape := ok.files ruleset member r here
  unfold LandlockAct.run
  simp only [here]
  rcases sysLandlockAddRule_effect color shape (ok.refer ruleset r here) access file object allocs
    with ⟨e, failed⟩ | ⟨r', done, shape', listed, usage⟩
  · rw [failed]
    exact ⟨_, _, rfl, ok, .failed _ _ (domainsKept_of_later (.refl s.heap)) rfl⟩
  · rw [done]
    have notDomain : ∀ d, s.heap.rulesets.get ruleset = some d → ¬ DomainShape d := by
      intro d isDom domain
      rw [here] at isDom
      cases isDom
      exact domain.in_hierarchy shape.plain
    refine ⟨_, _, rfl, ⟨ok.heap.insert here shape shape' usage, ?_, ?_, ?_, ?_⟩,
      .quiet _ _ trivial ⟨?_, .refl _⟩ rfl⟩
    · intro a inside q at'
      dsimp only at at'
      rcases Heap.set_cases at' with ⟨-, rfl⟩ | ⟨-, at'⟩
      · exact shape'
      · exact ok.files a inside q at'
    · intro t a atTask q at'
      dsimp only at at' atTask
      rcases Heap.set_cases at' with ⟨isRuleset, -⟩ | ⟨-, at'⟩
      · rw [isRuleset] at atTask
        exact absurd (ok.tasks t ruleset atTask r here) (notDomain r here)
      · exact ok.tasks t a atTask q at'
    · intro a inside q at'
      dsimp only at at' inside
      rcases Heap.set_cases at' with ⟨isRuleset, -⟩ | ⟨-, at'⟩
      · rw [isRuleset] at inside
        exact absurd (ok.dying ruleset inside r here) (notDomain r here)
      · exact ok.dying a inside q at'
    · intro a q at'
      dsimp only at at'
      rcases Heap.set_cases at' with ⟨-, rfl⟩ | ⟨-, at'⟩
      · exact listed
      · exact ok.refer a q at'
    · intro a d x at' isNode
      dsimp only at at'
      rcases Heap.set_cases at' with ⟨-, rfl⟩ | ⟨-, at'⟩
      · rw [shape'.plain] at isNode
        cases isNode
      · exact ⟨d, at', rfl⟩

theorem closeRuleset_does (color : RbInsertColor) (ok : SystemOk s) {ruleset : Nat}
    (enabled : Enabled s (.closeRuleset ruleset)) :
    Does s (.closeRuleset ruleset) ((LandlockAct.closeRuleset ruleset).run color s) := by
  have member : ruleset ∈ s.files := enabled
  have counted : HeapOk (plus (heldIn { s with files := s.files.erase ruleset }) ruleset) s.heap := by
    refine ok.heap.congr fun x => ?_
    have count := count_erase member x
    unfold heldIn plus
    dsimp only
    simp only [eq_comm] at count ⊢
    omega
  obtain ⟨heap, done, heapOk, later⟩ := counted.put
  unfold LandlockAct.run
  simp only [done, Option.map_some]
  refine ⟨_, _, rfl, ok.later heapOk later ?_ ?_ ?_, .quiet _ _ trivial (domainsKept_of_later later) rfl⟩
  · intro a inside
    exact List.mem_of_mem_erase inside
  · intro t a here
    exact ⟨t, here⟩
  · intro a inside
    exact .inl inside

theorem freeCred_does (color : RbInsertColor) (ok : SystemOk s) {domain : Nat}
    (enabled : Enabled s (.freeCred domain)) :
    Does s (.freeCred domain) ((LandlockAct.freeCred domain).run color s) := by
  have member : domain ∈ s.dying := enabled
  have counted : HeapOk (plus (heldIn { s with dying := s.dying.erase domain }) domain) s.heap := by
    refine ok.heap.congr fun x => ?_
    have count := count_erase member x
    unfold heldIn plus
    dsimp only
    simp only [eq_comm] at count ⊢
    omega
  obtain ⟨heap, done, heapOk, later⟩ := counted.put
  unfold LandlockAct.run
  simp only [done, Option.map_some]
  refine ⟨_, _, rfl, ok.later heapOk later ?_ ?_ ?_, .quiet _ _ trivial (domainsKept_of_later later) rfl⟩
  · intro a inside
    exact inside
  · intro t a here
    exact ⟨t, here⟩
  · intro a inside
    exact .inl (List.mem_of_mem_erase inside)

theorem fork_does (color : RbInsertColor) (ok : SystemOk s) {task child : Nat}
    (enabled : Enabled s (.fork task child)) :
    Does s (.fork task child) ((LandlockAct.fork task child).run color s) := by
  obtain ⟨exists_, fresh⟩ := enabled
  obtain ⟨domain, here⟩ := Option.ne_none_iff_exists'.mp exists_
  have owner : ∀ a, domain = some a → 1 ≤ heldIn s a := by
    rintro a rfl
    exact held_of_task here
  obtain ⟨heap, done, heapOk, later⟩ := HeapOk.getOpt ok.heap owner
  unfold LandlockAct.run
  simp only [here, done, Option.map_some]
  refine ⟨_, _, rfl, ok.later ?_ later ?_ ?_ ?_, .forked task child domain here
    (domainsKept_of_later later) rfl⟩
  · refine heapOk.congr fun x => ?_
    have count := tasksIn_add domain x fresh
    rw [plusOpt_eq]
    unfold heldIn
    dsimp only
    omega
  · intro a inside
    exact inside
  · intro t a at'
    dsimp only at at'
    rcases Heap.set_cases at' with ⟨-, rfl⟩ | ⟨-, at'⟩
    · exact ⟨task, here⟩
    · exact ⟨t, at'⟩
  · intro a inside
    exact .inl inside

theorem exit_does (color : RbInsertColor) (ok : SystemOk s) {task : Nat}
    (enabled : Enabled s (.exit task)) :
    Does s (.exit task) ((LandlockAct.exit task).run color s) := by
  obtain ⟨domain, here⟩ := Option.ne_none_iff_exists'.mp enabled
  have later := Later.refl s.heap
  unfold LandlockAct.run
  simp only [here]
  refine ⟨_, _, rfl, ok.later ?_ later ?_ ?_ ?_, .exited task (domainsKept_of_later later)
    rfl⟩
  · refine ok.heap.congr fun x => ?_
    have count := tasksIn_free x here
    unfold heldIn
    dsimp only
    rw [count_toList]
    omega
  · intro a inside
    exact inside
  · intro t a at'
    dsimp only at at'
    rw [Heap.get_free] at at'
    split at at'
    · cases at'
    · exact ⟨t, at'⟩
  · intro a inside
    rcases List.mem_append.mp inside with own | old
    · refine .inr ⟨task, ?_⟩
      rw [here, Option.mem_toList.mp own]
    · exact .inl old

/-- The merge of `landlock_restrict_self` finds its references. -/
theorem restrict_ready (ok : SystemOk s) {task ruleset newDom newHierarchy : Nat}
    {domain : Option Nat} (here : s.tasks.get task = some domain) (member : ruleset ∈ s.files)
    (freshDom : s.heap.rulesets.get newDom = none)
    (freshHierarchy : s.heap.hierarchies.get newHierarchy = none) (later : Later s.heap h) :
    MergeReady (plusOpt (plus (heldIn s) ruleset) domain) h domain ruleset newDom newHierarchy := by
  constructor
  · intro p isDomain
    rw [plusOpt_eq, if_pos isDomain]
    omega
  · intro p d isDomain
    rw [isDomain] at here
    exact shape_later domainShape_reused (ok.tasks task p here) later d
  · rw [plusOpt_eq, plus_same]
    omega
  · exact shape_later rulesetShape_reused (ok.files ruleset member) later
  · by_contra taken
    obtain ⟨q, isTaken⟩ := Option.ne_none_iff_exists'.mp taken
    obtain ⟨old, isOld, -⟩ := later.rulesets newDom q isTaken
    rw [freshDom] at isOld
    cases isOld
  · by_contra taken
    obtain ⟨q, isTaken⟩ := Option.ne_none_iff_exists'.mp taken
    obtain ⟨old, isOld, -⟩ := later.nodes newHierarchy q isTaken
    rw [freshHierarchy] at isOld
    cases isOld

theorem later_reads {hs : Hierarchies} (reads : ∀ x, hs.get x = h.hierarchies.get x) :
    Later h { h with hierarchies := hs } :=
  ⟨fun _ r here => ⟨r, here, rfl⟩, fun x node here => ⟨node, (reads x).symm.trans here, rfl⟩⟩

/-- A domain of a heap behind a merge is the new one or an old one. -/
theorem after_made {newDom : Nat} {dom : LandlockRuleset} {hs : Hierarchies}
    (later : Later { rulesets := h.rulesets.set newDom dom, hierarchies := hs } h')
    (here : h'.rulesets.get a = some r) :
    a = newDom ∧ r = { dom with usage := r.usage } ∨
      ∃ old, h.rulesets.get a = some old ∧ r = { old with usage := r.usage } := by
  obtain ⟨old, isOld, same⟩ := later.rulesets a r here
  dsimp only at isOld
  rcases Heap.set_cases isOld with ⟨isNew, rfl⟩ | ⟨-, isOld⟩
  · exact .inl ⟨isNew, same⟩
  · exact .inr ⟨old, isOld, same⟩

theorem restrict_made_ok (ok : SystemOk s) {task ruleset newDom newHierarchy : Nat}
    {domain : Option Nat} (here : s.tasks.get task = some domain) (before : Later s.heap h)
    (ready : MergeReady (plusOpt (plus (heldIn s) ruleset) domain) h domain ruleset newDom
      newHierarchy) (freshDom : s.heap.rulesets.get newDom = none)
    (atRuleset : h.rulesets.get ruleset = some r) {dom : LandlockRuleset} {hs : Hierarchies}
    (merged : Merged (parentAt h domain) r dom newHierarchy)
    (heap : HeapOk (plus (heldIn s) newDom) h')
    (after : Later { rulesets := h.rulesets.set newDom dom, hierarchies := hs } h') :
    SystemOk { s with heap := h', tasks := s.tasks.set task (some newDom)
                      dying := domain.toList ++ s.dying } := by
  have apart : ∀ a, 1 ≤ heldIn s a → a ≠ newDom := by
    rintro a owner rfl
    obtain ⟨q, taken⟩ := ok.heap.owned a owner
    rw [freshDom] at taken
    cases taken
  have parents : ∀ p, parentAt h domain = some p → DomainShape p := by
    intro p isParent
    obtain ⟨a, isDomain, atParent⟩ := Option.bind_eq_some_iff.mp isParent
    exact ready.parentShape a p isDomain atParent
  have older : ∀ (p : LandlockRuleset → Prop) a,
      (∀ r usage, p r → p { r with usage := usage }) → 1 ≤ heldIn s a →
      (∀ q, s.heap.rulesets.get a = some q → p q) → ∀ q, h'.rulesets.get a = some q → p q := by
    intro p a reused owner old q at'
    rcases after_made after at' with ⟨isNew, -⟩ | ⟨old', isOld, same⟩
    · exact absurd isNew (apart a owner)
    · rw [same]
      exact reused old' q.usage (shape_later reused old before old' isOld)
  constructor
  · refine heap.congr fun x => ?_
    have tasks := tasksIn_set (some newDom) x here
    unfold heldIn plus
    dsimp only
    rw [count_toList]
    simp only [Option.some.injEq, eq_comm] at tasks ⊢
    omega
  · intro a inside
    exact older _ a rulesetShape_reused (held_of_file inside) (ok.files a inside)
  · intro t a at' q isThere
    dsimp only at at' isThere
    rcases Heap.set_cases at' with ⟨-, isNew⟩ | ⟨-, at'⟩
    · cases isNew
      rcases after_made after isThere with ⟨-, same⟩ | ⟨old, isOld, -⟩
      · rw [same]
        exact domainShape_reused dom q.usage merged.shape
      · rw [ready.freshDom] at isOld
        cases isOld
    · exact older _ a domainShape_reused (held_of_task at') (ok.tasks t a at') q isThere
  · intro a inside
    rcases List.mem_append.mp inside with own | old
    · rw [Option.mem_toList.mp own] at here
      exact older _ a domainShape_reused (held_of_task here) (ok.tasks task a here)
    · exact older _ a domainShape_reused (held_of_dying old) (ok.dying a old)
  · intro a q at'
    have listed := refer_later ok.refer before
    rcases after_made after at' with ⟨-, same⟩ | ⟨old, isOld, same⟩
    · rw [same]
      refine (referListed_merged merged parents (ready.rulesetShape r atRuleset) ?_
        (listed ruleset r atRuleset)).reused q.usage
      intro p isParent
      obtain ⟨b, isDomain, atParent⟩ := Option.bind_eq_some_iff.mp isParent
      exact listed b p atParent
    · rw [same]
      exact (listed a old isOld).reused q.usage

theorem restrictSelf_does (color : RbInsertColor) (ok : SystemOk s)
    {task ruleset newDom newHierarchy : Nat} {permitted : Bool} {allocs : List Bool}
    (enabled : Enabled s (.restrictSelf task ruleset newDom newHierarchy permitted allocs)) :
    Does s (.restrictSelf task ruleset newDom newHierarchy permitted allocs)
      ((LandlockAct.restrictSelf task ruleset newDom newHierarchy permitted allocs).run color s) := by
  obtain ⟨exists_, member, freshDom, freshHierarchy⟩ := enabled
  obtain ⟨domain, here⟩ := Option.ne_none_iff_exists'.mp exists_
  unfold LandlockAct.run
  cases permitted with
  | false => exact ⟨_, _, rfl, ok, .failed _ _ (domainsKept_of_later (.refl s.heap)) rfl⟩
  | true =>
    simp only [if_true, here]
    unfold sysLandlockRestrictSelf
    obtain ⟨h₁, got, ok₁, later₁⟩ := ok.heap.get (held_of_file member)
    simp only [got, Option.bind_eq_bind, Option.bind_some]
    cases allocated : kzalloc allocs with
    | mk success allocs' =>
      cases success with
      | false =>
        obtain ⟨h₂, put, ok₂, later₂⟩ := ok₁.put
        simp only [put, Option.bind_some]
        have later := later₁.trans later₂
        refine ⟨_, _, rfl, ok.later ok₂ later (fun a inside => inside)
          (fun t a at' => ⟨t, at'⟩) (fun a inside => .inl inside), ?_⟩
        exact .failed _ _ (domainsKept_of_later later) rfl
      | true =>
        have owner : ∀ a, domain = some a → 1 ≤ plus (heldIn s) ruleset a := by
          rintro a rfl
          have held := held_of_task here
          unfold plus
          omega
        obtain ⟨h₂, gotOpt, ok₂, later₂⟩ := HeapOk.getOpt ok₁ owner
        have before := later₁.trans later₂
        have ready := restrict_ready ok here member freshDom freshHierarchy before
        obtain ⟨r, atRuleset⟩ := ok₂.owned ruleset ready.rulesetOwner
        obtain ⟨result, h₃, done, effect⟩ :=
          landlockMergeRuleset_effect color allocs' ok₂ ready atRuleset
        simp only [gotOpt, done, Option.bind_some]
        cases effect with
        | failed e hs reads ok₃ =>
          have counted : HeapOk (plus (plusOpt (heldIn s) domain) ruleset)
              { h₂ with hierarchies := hs } := by
            refine ok₃.congr fun x => ?_
            rw [plusOpt_eq]
            unfold plus
            rw [plusOpt_eq]
            omega
          obtain ⟨h₄, put, ok₄, later₄⟩ := counted.put
          simp only [put, Option.bind_some]
          have later := (before.trans (later_reads reads)).trans later₄
          refine ⟨_, _, rfl, ok.later ?_ later (fun a inside => inside)
            (fun t a at' => ⟨t, at'⟩) ?_, .failed _ _ (domainsKept_of_later later) rfl⟩
          · refine ok₄.congr fun x => ?_
            rw [plusOpt_eq]
            unfold heldIn
            dsimp only
            rw [count_toList]
            omega
          · intro a inside
            rcases List.mem_append.mp inside with own | old
            · rw [Option.mem_toList.mp own] at here
              exact .inr ⟨task, here⟩
            · exact .inl old
        | made dom hs merged grown reads ok₃ =>
          have counted : HeapOk (plusOpt (plus (plus (heldIn s) newDom) ruleset) domain)
              { rulesets := h₂.rulesets.set newDom dom, hierarchies := hs } := by
            refine ok₃.congr fun x => ?_
            rw [plusOpt_eq]
            unfold plus
            rw [plusOpt_eq]
            omega
          obtain ⟨h₄, putOpt, ok₄, later₄⟩ := HeapOk.putOpt counted
          obtain ⟨h₅, put, ok₅, later₅⟩ := ok₄.put
          simp only [putOpt, put, Option.bind_some]
          have after := later₄.trans later₅
          have can := mergeable ok₂ ready atRuleset
          refine ⟨_, _, rfl, restrict_made_ok ok here before ready freshDom atRuleset merged ok₅
            after, ?_⟩
          refine .restricted task ruleset newDom newHierarchy allocs domain h₂ r dom hs ?_
          constructor
          · exact here
          · exact before
          · exact ready.rulesetShape r atRuleset
          · exact can.parentShape
          · exact fun a isDomain => ok₂.owned a (ready.parentOwner a isDomain)
          · intro x isNode
            obtain ⟨node, isThere, -⟩ := can.live x isNode
            exact ⟨node, isThere⟩
          · exact freshDom
          · exact freshHierarchy
          · exact merged
          · exact reads
          · exact after
          · rfl

theorem act_does (color : RbInsertColor) (ok : SystemOk s) (act : LandlockAct)
    (enabled : Enabled s act) : Does s act (act.run color s) := by
  cases act with
  | createRuleset handled new allocs => exact createRuleset_does color ok enabled
  | addRule ruleset access file object allocs => exact addRule_does color ok enabled
  | closeRuleset ruleset => exact closeRuleset_does color ok enabled
  | restrictSelf task ruleset newDom newHierarchy permitted allocs =>
    exact restrictSelf_does color ok enabled
  | fork task child => exact fork_does color ok enabled
  | exit task => exact exit_does color ok enabled
  | freeCred domain => exact freeCred_does color ok enabled

end Actions

/-- Tasks without domains, before Landlock is used. -/
structure AtBoot (s : LandlockSystem) : Prop where
  rulesets : s.heap.rulesets = .empty
  hierarchies : s.heap.hierarchies = .empty
  files : s.files = []
  dying : s.dying = []
  tasks : ∀ t d, s.tasks.get t = some d → d = none

theorem atBoot_ok (boot : AtBoot s) : SystemOk s := by
  have unowned : ∀ a, heldIn s a = 0 := by
    intro a
    have none : s.tasks.count (fun _ d => d == some a) = 0 := by
      refine (Heap.count_eq_zero _).mpr fun t d here => ?_
      rw [boot.tasks t d here]
      rfl
    unfold heldIn tasksIn
    rw [boot.files, boot.dying, none]
    rfl
  have absent : ∀ a r, s.heap.rulesets.get a = some r → False := by
    intro a r here
    rw [boot.rulesets] at here
    cases here
  have noNode : ∀ x node, s.heap.hierarchies.get x = some node → False := by
    intro x node here
    rw [boot.hierarchies] at here
    cases here
  constructor
  · constructor
    · exact fun a r here => (absent a r here).elim
    · exact fun a r here => (absent a r here).elim
    · intro a owner
      rw [unowned] at owner
      cases owner
    · constructor
      · exact fun x node here => (noNode x node here).elim
      · intro x some
        rw [boot.rulesets] at some
        cases some
      · exact fun x node p here => (noNode x node here).elim
    · exact fun a d x here => (absent a d here).elim
  · exact fun a _ r here => (absent a r here).elim
  · exact fun _ a _ r here => (absent a r here).elim
  · exact fun a _ r here => (absent a r here).elim
  · exact fun a r here => (absent a r here).elim

/-- Runs of tasks that use Landlock. -/
def landlockTasks (color : RbInsertColor) : Machine LandlockSystem LandlockAct where
  start := AtBoot
  step s act := if Enabled s act then (act.run color s).map Prod.snd else none

theorem reachable_systemOk (color : RbInsertColor)
    (reached : (landlockTasks color).Reachable Machine.free s) : SystemOk s := by
  refine reached.invariant (fun s₀ boot => atBoot_ok boot) ?_
  intro s act s' ok _ stepped
  change (if Enabled s act then (act.run color s).map Prod.snd else none) = some s' at stepped
  split at stepped
  · rename_i enabled
    obtain ⟨result, s'', ran, ok', outcome⟩ := act_does color ok act enabled
    rw [ran] at stepped
    cases stepped
    exact ok'
  · cases stepped

end Ksrc.Guarantees.LandlockSystem

import Ksrc.Library.Transition
import Ksrc.Source.KvCache
import Ksrc.Guarantees.RbTreeElements

/-!
# One call of the key/value cache

A call that runs alone looks at the binding of its key and leaves the dictionary as it was,
or stores a value in the node of the key, links a new node or takes the node out. Which of
these, and the answer, is what a map of bounded size says of the binding.
-/
namespace Ksrc.Guarantees.KvCacheCalls
open Source Library RbTreeElements

variable {ν : Type} {s s' : Kvcache ν} {d node : Nat} {m : U64} {k : List U8}

section Abstract

/-- The values that can be stored. -/
def supported : LuaValue ν → Bool
  | .boolean _ | .number _ | .lightuserdata _ => true
  | .nil | .other => false

theorem fill_supported {value : LuaValue ν} (isSupported : supported value = true) :
    kvcacheNodeFill value = .ok value := by
  cases value with
  | nil => cases isSupported
  | other => cases isSupported
  | _ => rfl

theorem fill_unsupported {value : LuaValue ν} (isUnsupported : ¬ supported value = true) :
    kvcacheNodeFill value = .error .EINVAL := by
  cases value with
  | nil => rfl
  | other => rfl
  | _ => exact absurd rfl isUnsupported

theorem supported_notNil {value : LuaValue ν} (isSupported : supported value = true) :
    value.isNil = false := by
  cases value with
  | nil => cases isSupported
  | _ => rfl

variable [Add ν]

/-- What a call does to one binding of a map that holds a bounded number of them: its answer and
the value afterwards, where `nil` is the value of a key without a binding. -/
def bindingCall (old : LuaValue ν) (full : Bool) : KvcacheCall ν → KvcacheResult ν × LuaValue ν
  | .set _ .nil _ => (.value (.boolean true), .nil)
  | .set _ value alloc =>
    if old.isNil ∧ ¬ alloc then (.error .ENOMEM, old)
    else if ¬ supported value then (.error .EINVAL, old)
    else if old.isNil ∧ full then (.error .ERANGE, old)
    else (.value (.boolean true), value)
  | .get _ => (.value old, old)
  | .incr _ n alloc =>
    match old with
    | .nil =>
      if ¬ alloc then (.error .ENOMEM, .nil)
      else if full then (.error .ERANGE, .nil)
      else (.value (.number n), .number n)
    | .number old => (.value (.number (old + n)), .number (old + n))
    | old => (.error .EINVAL, old)

/-- A call that fails leaves the binding as it was. -/
theorem bindingCall_error {old new : LuaValue ν} {full : Bool} {call : KvcacheCall ν} {e : Errno}
    (failed : bindingCall old full call = (.error e, new)) : new = old := by
  cases call with
  | set key value alloc =>
    cases value with
    | nil => cases failed
    | _ =>
      simp only [bindingCall] at failed
      split at failed
      · cases failed
        rfl
      split at failed
      · cases failed
        rfl
      split at failed
      · cases failed
        rfl
      · cases failed
  | get key => cases failed
  | incr key n alloc =>
    cases old with
    | nil =>
      simp only [bindingCall] at failed
      split at failed
      · cases failed
        rfl
      split at failed
      · cases failed
        rfl
      · cases failed
    | number old => cases failed
    | boolean b =>
      cases failed
      rfl
    | lightuserdata p =>
      cases failed
      rfl
    | other =>
      cases failed
      rfl

theorem bindingCall_set_value {k : List U8} {old new value v : LuaValue ν} {alloc full : Bool}
    (stored : bindingCall old full (.set k value alloc) = (.value v, new)) : new = value := by
  cases value with
  | nil =>
    cases stored
    rfl
  | _ =>
    simp only [bindingCall] at stored
    split at stored
    · cases stored
    split at stored
    · cases stored
    split at stored
    · cases stored
    · cases stored
      rfl

theorem bindingCall_incr_value {k : List U8} {old new v : LuaValue ν} {n : ν} {alloc full : Bool}
    (stored : bindingCall old full (.incr k n alloc) = (.value v, new)) : new = v := by
  cases old with
  | nil =>
    simp only [bindingCall] at stored
    split at stored
    · cases stored
    split at stored
    · cases stored
    · cases stored
      rfl
  | number old =>
    cases stored
    rfl
  | _ => cases stored

end Abstract

section Memory

variable {f g : KvcacheNode ν → KvcacheNode ν}

@[simp] theorem setNode_dicts : (s.setNode node f).dicts = s.dicts := rfl

@[simp] theorem setNode_self : (s.setNode node f).nodes node = f (s.nodes node) :=
  Function.update_self _ _ _

theorem setNode_other {n : Nat} (differs : n ≠ node) : (s.setNode node f).nodes n = s.nodes n :=
  Function.update_of_ne differs _ _

@[simp] theorem setNode_setNode : (s.setNode node f).setNode node g =
    s.setNode node fun cell => g (f cell) := by
  unfold Kvcache.setNode
  simp only [Function.update_self, Function.update_idem]

theorem setNode_same (same : f (s.nodes node) = s.nodes node) : s.setNode node f = s := by
  unfold Kvcache.setNode
  rw [same, Function.update_eq_self]

theorem kvcacheNodeDrop_held (held : (s.nodes node).refcount ≠ 1) : kvcacheNodeDrop s node =
    s.setNode node fun cell => { cell with refcount := cell.refcount - 1 } := by
  unfold kvcacheNodeDrop
  rw [if_neg]
  rw [setNode_self]
  dsimp only
  omega

theorem kvcacheNodeDrop_last (last : (s.nodes node).refcount = 1) : kvcacheNodeDrop s node =
    s.setNode node fun cell =>
      { cell with refcount := cell.refcount - 1, value := .nil, freed := true } := by
  unfold kvcacheNodeDrop
  rw [if_pos]
  · unfold kvcacheNodeFree
    rw [setNode_setNode]
  · rw [setNode_self]
    dsimp only
    omega

@[simp] theorem drop_dicts : (kvcacheNodeDrop s node).dicts = s.dicts := by
  unfold kvcacheNodeDrop
  dsimp only
  split <;> rfl

@[simp] theorem drop_allocated : (kvcacheNodeDrop s node).allocated = s.allocated := by
  unfold kvcacheNodeDrop
  dsimp only
  split <;> rfl

theorem drop_other {n : Nat} (differs : n ≠ node) :
    (kvcacheNodeDrop s node).nodes n = s.nodes n := by
  unfold kvcacheNodeDrop
  dsimp only
  split
  · unfold kvcacheNodeFree
    rw [setNode_other differs, setNode_other differs]
  · rw [setNode_other differs]

@[simp] theorem unlink_allocated : (kvcacheModuleUnlink s d m node).allocated = s.allocated := by
  unfold kvcacheModuleUnlink
  split <;> rfl

@[simp] theorem unlink_nodes : (kvcacheModuleUnlink s d m node).nodes = s.nodes := by
  unfold kvcacheModuleUnlink
  split <;> rfl

@[simp] theorem unlink_dicts : (kvcacheModuleUnlink s d m node).dicts = Function.update s.dicts d
    { s.dicts d with
      root := ((s.dicts d).root.remove node).getD (s.dicts d).root
      count := (s.dicts d).count - 1 } := by
  unfold kvcacheModuleUnlink
  split <;> rfl

/-- A reference that is taken and put leaves no trace. -/
theorem drop_hold (held : (s.nodes node).refcount ≠ 0) :
    kvcacheNodeDrop (kvcacheNodeHold s node) node = s := by
  unfold kvcacheNodeHold
  rw [kvcacheNodeDrop_held]
  · rw [setNode_setNode]
    apply setNode_same
    dsimp only
    rw [Int.add_sub_cancel]
  · rw [setNode_self]
    dsimp only
    omega

end Memory

section State

/-- The node that a search finds under a key of a module. -/
def nodeAt (s : Kvcache ν) (d : Nat) (m : U64) (k : List U8) : Option Nat :=
  (s.dicts d).root.find (kvcacheProbe s.nodes m k)

/-- The value under a key of a module. -/
def valueAt (s : Kvcache ν) (d : Nat) (m : U64) (k : List U8) : LuaValue ν :=
  match nodeAt s d m k with
  | none => .nil
  | some node => (s.nodes node).value

/-- The nodes linked in a dictionary. -/
def linkedNodes (s : Kvcache ν) (d : Nat) : List Nat := (s.dicts d).root.foreach

/-- A dictionary that no call is at work on. -/
structure DictOk (s : Kvcache ν) (d : Nat) : Prop where
  below : ∀ n ∈ linkedNodes s d, n < s.allocated
  once : (linkedNodes s d).Nodup
  count : (s.dicts d).count = (linkedNodes s d).length
  bounded : (s.dicts d).count ≤ (s.dicts d).capacity
  held : ∀ n ∈ linkedNodes s d, (s.nodes n).refcount = 1
  filled : ∀ n ∈ linkedNodes s d, supported (s.nodes n).value = true

/-- What a call leaves of the cache, when the value under its key is `new` afterwards. -/
inductive CallEffect (s : Kvcache ν) (d : Nat) (m : U64) (k : List U8) (new : LuaValue ν)
    (s' : Kvcache ν) : Prop where
  | kept (same : new = valueAt s d m k) (dicts : s'.dicts = s.dicts)
      (allocated : s.allocated ≤ s'.allocated)
      (nodes : ∀ n < s.allocated, s'.nodes n = s.nodes n)
  | stored (node : Nat) (found : nodeAt s d m k = some node) (filled : supported new = true)
      (dicts : s'.dicts = s.dicts) (allocated : s'.allocated = s.allocated)
      (nodes : s'.nodes = Function.update s.nodes node { s.nodes node with value := new })
  | linked (root : RbTree Nat) (absent : nodeAt s d m k = none)
      (room : (s.dicts d).count < (s.dicts d).capacity) (filled : supported new = true)
      (insert : (s.dicts d).root.insert (kvcacheCmp s'.nodes) s.allocated = (none, root))
      (dicts : s'.dicts = Function.update s.dicts d
        { s.dicts d with root, count := (s.dicts d).count + 1 })
      (allocated : s'.allocated = s.allocated + 1)
      (nodes : s'.nodes = Function.update s.nodes s.allocated
        { key := k, module := m, dict := d, refcount := 1, value := new, freed := false })
  | dropped (node : Nat) (root : RbTree Nat) (found : nodeAt s d m k = some node)
      (gone : new = .nil) (remove : (s.dicts d).root.remove node = some root)
      (dicts : s'.dicts = Function.update s.dicts d
        { s.dicts d with root, count := (s.dicts d).count - 1 })
      (allocated : s'.allocated = s.allocated)
      (nodes : ∀ n, n ≠ node → s'.nodes n = s.nodes n)

theorem valueAt_none (absent : nodeAt s d m k = none) : valueAt s d m k = .nil := by
  unfold valueAt
  rw [absent]

theorem valueAt_some (found : nodeAt s d m k = some node) :
    valueAt s d m k = (s.nodes node).value := by
  unfold valueAt
  rw [found]

theorem nodeAt_some (found : nodeAt s d m k = some node) :
    node ∈ linkedNodes s d ∧ kvcacheProbe s.nodes m k node = 0 :=
  find_some found

theorem kvcacheLookup_eq : kvcacheLookup s d m k =
    match nodeAt s d m k with
    | none => (none, s)
    | some node => (some node, kvcacheNodeHold s node) := rfl

theorem unlink_perm {n : Nat} (member : n ∈ linkedNodes s d) :
    (linkedNodes s d).Perm (n :: linkedNodes (kvcacheModuleUnlink s d m n) d) := by
  cases removed : (s.dicts d).root.remove n with
  | none => exact absurd member (remove_none.mp removed)
  | some root =>
    obtain ⟨before, after, was, is⟩ := remove_some removed
    have now : linkedNodes (kvcacheModuleUnlink s d m n) d = before ++ after := by
      unfold linkedNodes
      rw [unlink_dicts, Function.update_self, removed]
      exact is
    rw [now]
    unfold linkedNodes
    rw [was]
    exact List.perm_middle

theorem unlink_count {n : Nat} :
    ((kvcacheModuleUnlink s d m n).dicts d).count = (s.dicts d).count - 1 := by
  rw [unlink_dicts, Function.update_self]

theorem linked_congr (dicts : s'.dicts = s.dicts) :
    linkedNodes s' d = linkedNodes s d := by
  unfold linkedNodes
  rw [dicts]

theorem DictOk.drop_hold (ok : DictOk s d) (found : nodeAt s d m k = some node) :
    kvcacheNodeDrop (kvcacheNodeHold s node) node = s := by
  apply KvCacheCalls.drop_hold
  rw [ok.held node (nodeAt_some found).1]
  decide

end State

section Creation

variable {v : LuaValue ν}

/-- The cache with a new node, filled but not linked. -/
def created (s : Kvcache ν) (d : Nat) (m : U64) (k : List U8) (v : LuaValue ν) : Kvcache ν :=
  (kvcacheNodeAlloc s d m k).2.setNode s.allocated fun n => { n with value := v }

theorem created_nodes : (created s d m k v).nodes = Function.update s.nodes s.allocated
    { key := k, module := m, dict := d, refcount := 1, value := v, freed := false } := by
  unfold created kvcacheNodeAlloc Kvcache.setNode
  simp only [Function.update_self, Function.update_idem]

@[simp] theorem created_dicts : (created s d m k v).dicts = s.dicts := rfl

theorem created_other {n : Nat} (old : n < s.allocated) :
    (created s d m k v).nodes n = s.nodes n := by
  rw [created_nodes, Function.update_of_ne (Nat.ne_of_lt old)]

/-- The new node is compared with the others as the search for its key was. -/
theorem created_cmp {n : Nat} (old : n < s.allocated) :
    kvcacheCmp (created s d m k v).nodes s.allocated n = kvcacheProbe s.nodes m k n := by
  unfold kvcacheCmp kvcacheProbe
  rw [created_other old, created_nodes, Function.update_self]

theorem created_search (ok : DictOk s d) :
    (s.dicts d).root.find (kvcacheCmp (created s d m k v).nodes s.allocated) = nodeAt s d m k :=
  find_congr fun n member => created_cmp (ok.below n member)

/-- A node that is freed before it is linked leaves the dictionary as it was. -/
theorem created_freed :
    CallEffect s d m k (valueAt s d m k) (kvcacheNodeFree (created s d m k v) s.allocated) := by
  refine .kept rfl rfl (Nat.le_succ _) fun n old => ?_
  unfold kvcacheNodeFree
  rw [setNode_other (Nat.ne_of_lt old), created_other old]

/-- What linking a new node comes to where the search for its key has found nothing. -/
theorem created_link {answer : KvcacheLinked} (ok : DictOk s d) (absent : nodeAt s d m k = none)
    (filled : supported v = true)
    (done : kvcacheModuleLink (created s d m k v) d m s.allocated = (answer, s')) :
    ((s.dicts d).count ≥ (s.dicts d).capacity ∧ answer = .range ∧ s' = created s d m k v) ∨
    ((s.dicts d).count < (s.dicts d).capacity ∧ answer = .linked ∧ CallEffect s d m k v s') := by
  unfold kvcacheModuleLink at done
  rw [created_dicts] at done
  split at done
  · rename_i full
    cases done
    exact .inl ⟨full, rfl, rfl⟩
  · rename_i room
    refine .inr ⟨by omega, ?_⟩
    split at done
    · rename_i prev root inserted
      have met := (insert_some inserted).1
      rw [created_search ok, absent] at met
      cases met
    · rename_i root inserted
      split at done
      · cases done
        exact ⟨rfl, .linked root absent (by omega) filled inserted rfl rfl created_nodes⟩
      · cases done
        exact ⟨rfl, .linked root absent (by omega) filled inserted rfl rfl created_nodes⟩

end Creation

section Calls

theorem alloc_eq : kvcacheNodeAlloc s d m k = (s.allocated, created s d m k .nil) := by
  unfold created
  rw [setNode_same]
  · rfl
  · unfold kvcacheNodeAlloc
    dsimp only
    rw [Function.update_self]

theorem created_fill {v : LuaValue ν} : (created s d m k .nil).setNode s.allocated
    (fun n => { n with value := v }) = created s d m k v := by
  unfold created
  rw [setNode_setNode]

theorem DictOk.notNil (ok : DictOk s d) (found : nodeAt s d m k = some node) :
    (valueAt s d m k).isNil = false := by
  rw [valueAt_some found]
  exact supported_notNil (ok.filled node (nodeAt_some found).1)

theorem kept_self : CallEffect s d m k (valueAt s d m k) s :=
  .kept rfl rfl (Nat.le_refl _) fun _ _ => rfl

/-- A held node after its value was changed and the hold put. -/
theorem drop_stored {value : LuaValue ν} (ok : DictOk s d) (found : nodeAt s d m k = some node) :
    kvcacheNodeDrop ((kvcacheNodeHold s node).setNode node fun n => { n with value }) node =
      s.setNode node fun n => { n with value } := by
  have held := ok.held node (nodeAt_some found).1
  unfold kvcacheNodeHold
  rw [setNode_setNode, kvcacheNodeDrop_held]
  · rw [setNode_setNode]
    simp only [Int.add_sub_cancel]
  · rw [setNode_self]
    dsimp only
    omega

variable [Add ν] {r : KvcacheResult ν} {call : KvcacheCall ν} {value : LuaValue ν} {n : ν}
  {alloc : Bool}

/-- Whether no new node may be linked. -/
def full (s : Kvcache ν) (d : Nat) : Bool := decide ((s.dicts d).count ≥ (s.dicts d).capacity)

/-- What a call has done, as one binding of a map sees it. -/
def CallDone (s : Kvcache ν) (d : Nat) (m : U64) (call : KvcacheCall ν) (r : KvcacheResult ν)
    (s' : Kvcache ν) : Prop :=
  ∃ new, bindingCall (valueAt s d m (callKey call)) (full s d) call = (r, new) ∧
    CallEffect s d m (callKey call) new s'

theorem kvcacheGet_done (ok : DictOk s d) (called : kvcacheGet s d m k = (r, s')) :
    CallDone s d m (.get k) r s' := by
  unfold kvcacheGet at called
  rw [kvcacheLookup_eq] at called
  cases found : nodeAt s d m k with
  | none =>
    rw [found] at called
    cases called
    have absent := valueAt_none found
    refine ⟨valueAt s d m k, ?_, kept_self⟩
    rw [callKey, bindingCall, absent]
  | some node =>
    rw [found] at called
    cases called
    have present := valueAt_some found
    rw [ok.drop_hold found]
    refine ⟨valueAt s d m k, ?_, kept_self⟩
    unfold kvcacheNodeGet kvcacheNodeHold
    rw [callKey, bindingCall, present, setNode_self]

theorem bindingCall_set {old : LuaValue ν} {full : Bool} (notNil : value.isNil = false) :
    bindingCall old full (.set k value alloc) =
      if old.isNil ∧ ¬ alloc then (.error .ENOMEM, old)
      else if ¬ supported value then (.error .EINVAL, old)
      else if old.isNil ∧ full then (.error .ERANGE, old)
      else (.value (.boolean true), value) := by
  cases value with
  | nil => cases notNil
  | _ => rfl

/-- `kvcache_set` of a key without a node. -/
theorem kvcacheSet_new (ok : DictOk s d) (absent : nodeAt s d m k = none)
    (notNil : value.isNil = false) (called : kvcacheSet s d m k value alloc = (r, s')) :
    CallDone s d m (.set k value alloc) r s' := by
  have old : valueAt s d m k = .nil := valueAt_none absent
  have wasNil : (valueAt s d m k).isNil = true := by
    rw [old]
    rfl
  unfold CallDone
  rw [callKey, bindingCall_set notNil]
  unfold kvcacheSet at called
  rw [kvcacheLookup_eq, absent] at called
  simp only [notNil, Bool.false_eq_true, if_false, alloc_eq] at called
  by_cases failed : ¬ alloc = true
  · rw [if_pos failed] at called
    cases called
    rw [if_pos ⟨wasNil, failed⟩]
    exact ⟨_, rfl, kept_self⟩
  rw [if_neg failed] at called
  rw [if_neg fun both => failed both.2]
  by_cases filled : supported value = true
  · rw [fill_supported filled] at called
    simp only [created_fill] at called
    rw [if_neg (not_not.mpr filled)]
    cases linked : kvcacheModuleLink (created s d m k value) d m s.allocated with
    | mk answer after =>
      rw [linked] at called
      rcases created_link ok absent filled linked with ⟨isFull, rfl, rfl⟩ | ⟨room, rfl, effect⟩
      · cases called
        rw [if_pos ⟨wasNil, decide_eq_true isFull⟩]
        exact ⟨_, rfl, created_freed⟩
      · cases called
        have notFull : ¬ ((s.dicts d).count ≥ (s.dicts d).capacity) := by omega
        rw [if_neg fun both => notFull (of_decide_eq_true both.2)]
        exact ⟨_, rfl, effect⟩
  · rw [fill_unsupported filled] at called
    cases called
    rw [if_pos filled]
    exact ⟨_, rfl, created_freed⟩

/-- `kvcache_set` of a key with a node, to a value. -/
theorem kvcacheSet_refill (ok : DictOk s d) (found : nodeAt s d m k = some node)
    (notNil : value.isNil = false) (called : kvcacheSet s d m k value alloc = (r, s')) :
    CallDone s d m (.set k value alloc) r s' := by
  have notAbsent : ¬ (valueAt s d m k).isNil = true := by
    rw [ok.notNil found]
    exact Bool.false_ne_true
  unfold CallDone
  rw [callKey, bindingCall_set notNil, if_neg fun both => notAbsent both.1]
  unfold kvcacheSet at called
  rw [kvcacheLookup_eq, found] at called
  simp only [notNil, Bool.false_eq_true, if_false] at called
  unfold kvcacheNodeRefill at called
  by_cases filled : supported value = true
  · rw [fill_supported filled] at called
    rw [if_neg (not_not.mpr filled), if_neg fun both => notAbsent both.1]
    cases called
    rw [drop_stored ok found]
    exact ⟨_, rfl, .stored node found filled rfl rfl rfl⟩
  · rw [fill_unsupported filled] at called
    rw [if_pos filled]
    cases called
    rw [ok.drop_hold found]
    exact ⟨_, rfl, kept_self⟩

/-- `kvcache_set` to `nil`. -/
theorem kvcacheSet_nil (called : kvcacheSet s d m k .nil alloc = (r, s')) :
    CallDone s d m (.set k .nil alloc) r s' := by
  unfold CallDone
  rw [callKey, bindingCall]
  unfold kvcacheSet at called
  rw [kvcacheLookup_eq] at called
  cases found : nodeAt s d m k with
  | none =>
    rw [found] at called
    cases called
    refine ⟨.nil, rfl, ?_⟩
    rw [← valueAt_none found]
    exact kept_self
  | some node =>
    rw [found] at called
    cases called
    refine ⟨.nil, rfl, ?_⟩
    obtain ⟨member, -⟩ := nodeAt_some found
    cases removed : (s.dicts d).root.remove node with
    | none => exact absurd member (remove_none.mp removed)
    | some root =>
      refine .dropped node root found rfl removed ?_ ?_ fun n differs => ?_
      · rw [drop_dicts, drop_dicts, unlink_dicts]
        unfold kvcacheNodeHold
        rw [setNode_dicts, removed]
        rfl
      · rw [drop_allocated, drop_allocated, unlink_allocated]
        rfl
      · rw [drop_other differs, drop_other differs, unlink_nodes]
        exact setNode_other differs

/-- `kvcache_incr` of a key without a node. -/
theorem kvcacheIncr_new (ok : DictOk s d) (absent : nodeAt s d m k = none)
    (called : kvcacheIncr s d m k n alloc = (r, s')) : CallDone s d m (.incr k n alloc) r s' := by
  have old : valueAt s d m k = .nil := valueAt_none absent
  unfold CallDone
  rw [callKey, old, bindingCall]
  unfold kvcacheIncr at called
  rw [kvcacheLookup_eq, absent] at called
  simp only [alloc_eq, created_fill] at called
  by_cases failed : ¬ alloc = true
  · rw [if_pos failed] at called
    cases called
    rw [if_pos failed, ← old]
    exact ⟨_, rfl, kept_self⟩
  rw [if_neg failed] at called
  rw [if_neg failed]
  cases linked : kvcacheModuleLink (created s d m k (.number n)) d m s.allocated with
  | mk answer after =>
    rw [linked] at called
    rcases created_link ok absent rfl linked with ⟨isFull, rfl, rfl⟩ | ⟨room, rfl, effect⟩
    · cases called
      have isFull' : full s d = true := decide_eq_true isFull
      rw [if_pos isFull', ← old]
      exact ⟨_, rfl, created_freed⟩
    · cases called
      have notFull : ¬ full s d = true := by
        intro isFull
        have atLeast := of_decide_eq_true isFull
        omega
      rw [if_neg notFull]
      exact ⟨_, rfl, effect⟩

/-- `kvcache_incr` of a key with a node. -/
theorem kvcacheIncr_update (ok : DictOk s d) (found : nodeAt s d m k = some node)
    (called : kvcacheIncr s d m k n alloc = (r, s')) : CallDone s d m (.incr k n alloc) r s' := by
  have present := valueAt_some found
  have notNil := ok.notNil found
  unfold CallDone
  rw [callKey]
  unfold kvcacheIncr at called
  rw [kvcacheLookup_eq, found] at called
  simp only [kvcacheUpdate] at called
  have held : ((kvcacheNodeHold s node).nodes node).value = valueAt s d m k := by
    rw [present]
    unfold kvcacheNodeHold
    rw [setNode_self]
  rw [held] at called
  cases stored : valueAt s d m k with
  | nil =>
    rw [stored] at notNil
    cases notNil
  | number old =>
    rw [stored] at called
    cases called
    rw [drop_stored ok found]
    exact ⟨_, rfl, .stored node found rfl rfl rfl rfl⟩
  | _ =>
    rw [stored] at called
    cases called
    rw [ok.drop_hold found, ← stored]
    refine ⟨valueAt s d m k, ?_, kept_self⟩
    rw [stored]
    rfl

/-- Each call does to the dictionary what it does to a binding of the map. -/
theorem kvcacheCall_done (ok : DictOk s d) (called : kvcacheCall s d m call = (r, s')) :
    CallDone s d m call r s' := by
  cases call with
  | set key value alloc =>
    cases isNil : value.isNil with
    | true =>
      cases value with
      | nil => exact kvcacheSet_nil called
      | _ => cases isNil
    | false =>
      cases found : nodeAt s d m key with
      | none => exact kvcacheSet_new ok found isNil called
      | some node => exact kvcacheSet_refill ok found isNil called
  | get key => exact kvcacheGet_done ok called
  | incr key n alloc =>
    cases found : nodeAt s d m key with
    | none => exact kvcacheIncr_new ok found called
    | some node => exact kvcacheIncr_update ok found called

end Calls

section Invariant

variable {new : LuaValue ν}

/-- A fresh dictionary. -/
theorem dictInit_ok (fresh : s.dicts d = kvcacheDictInit) : DictOk s d := by
  have empty : linkedNodes s d = [] := by
    unfold linkedNodes
    rw [fresh]
    rfl
  constructor
  · rw [empty]
    exact fun n member => absurd member List.not_mem_nil
  · rw [empty]
    exact List.nodup_nil
  · rw [empty, fresh]
    rfl
  · rw [fresh]
    decide
  · rw [empty]
    exact fun n member => absurd member List.not_mem_nil
  · rw [empty]
    exact fun n member => absurd member List.not_mem_nil

theorem CallEffect.linked_kept (effect : CallEffect s d m k new s') (ok : DictOk s d) {n : Nat}
    (member : n ∈ linkedNodes s d) (other : nodeAt s d m k ≠ some n) :
    n ∈ linkedNodes s' d ∧ s'.nodes n = s.nodes n := by
  have old := ok.below n member
  cases effect with
  | kept same dicts allocated nodes =>
    refine ⟨?_, nodes n old⟩
    unfold linkedNodes
    rw [dicts]
    exact member
  | stored node found filled dicts allocated nodes =>
    have differs : n ≠ node := fun same => other (same ▸ found)
    refine ⟨?_, ?_⟩
    · unfold linkedNodes
      rw [dicts]
      exact member
    · rw [nodes, Function.update_of_ne differs]
  | linked root absent room filled insert dicts allocated nodes =>
    refine ⟨?_, ?_⟩
    · unfold linkedNodes
      rw [dicts, Function.update_self]
      exact (insert_none insert).2.1.symm.subset (List.mem_cons_of_mem _ member)
    · rw [nodes, Function.update_of_ne (Nat.ne_of_lt old)]
  | dropped node root found gone remove dicts allocated nodes =>
    have differs : n ≠ node := fun same => other (same ▸ found)
    refine ⟨?_, nodes n differs⟩
    obtain ⟨before, after, was, is⟩ := remove_some remove
    unfold linkedNodes at member ⊢
    rw [dicts, Function.update_self, is]
    rw [was, List.mem_append, List.mem_cons] at member
    rcases member with member | same | member
    · exact List.mem_append_left _ member
    · exact absurd same differs
    · exact List.mem_append_right _ member

/-- Every node that is linked afterwards was linked before, or is the new node of the call. -/
theorem CallEffect.linked_from (effect : CallEffect s d m k new s') {n : Nat}
    (member : n ∈ linkedNodes s' d) : n ∈ linkedNodes s d ∨
      (n = s.allocated ∧ (s'.nodes n).key = k ∧ (s'.nodes n).module = m) := by
  cases effect with
  | kept same dicts allocated nodes =>
    unfold linkedNodes at member ⊢
    rw [dicts] at member
    exact .inl member
  | stored node found filled dicts allocated nodes =>
    unfold linkedNodes at member ⊢
    rw [dicts] at member
    exact .inl member
  | linked root absent room filled insert dicts allocated nodes =>
    unfold linkedNodes at member ⊢
    rw [dicts, Function.update_self] at member
    rcases List.mem_cons.mp ((insert_none insert).2.1.subset member) with rfl | old
    · refine .inr ⟨rfl, ?_, ?_⟩
      · rw [nodes, Function.update_self]
      · rw [nodes, Function.update_self]
    · exact .inl old
  | dropped node root found gone remove dicts allocated nodes =>
    obtain ⟨before, after, was, is⟩ := remove_some remove
    unfold linkedNodes at member ⊢
    rw [dicts, Function.update_self, is] at member
    rw [was]
    rcases List.mem_append.mp member with member | member
    · exact .inl (List.mem_append_left _ member)
    · exact .inl (List.mem_append_right _ (List.mem_cons_of_mem _ member))

/-- The fields of a node that no call changes. -/
theorem CallEffect.node_kept (effect : CallEffect s d m k new s') (ok : DictOk s d) {n : Nat}
    (member : n ∈ linkedNodes s d) (still : n ∈ linkedNodes s' d) :
    (s'.nodes n).key = (s.nodes n).key ∧ (s'.nodes n).module = (s.nodes n).module ∧
      (s'.nodes n).refcount = (s.nodes n).refcount ∧
      (supported (s.nodes n).value = true → supported (s'.nodes n).value = true) := by
  by_cases here : nodeAt s d m k = some n
  · cases effect with
    | kept same dicts allocated nodes =>
      rw [nodes n (ok.below n member)]
      exact ⟨rfl, rfl, rfl, id⟩
    | stored node found filled dicts allocated nodes =>
      rw [here] at found
      cases found
      rw [nodes, Function.update_self]
      exact ⟨rfl, rfl, rfl, fun _ => filled⟩
    | linked root absent room filled insert dicts allocated nodes =>
      rw [here] at absent
      cases absent
    | dropped node root found gone remove dicts allocated nodes =>
      rw [here] at found
      cases found
      obtain ⟨before, after, was, is⟩ := remove_some remove
      have once := ok.once
      unfold linkedNodes at still once
      rw [dicts, Function.update_self, is] at still
      rw [was] at once
      exact absurd still (List.nodup_middle.mp once).notMem
  · rw [(effect.linked_kept ok member here).2]
    exact ⟨rfl, rfl, rfl, id⟩

/-- A call leaves a dictionary that no call is at work on. -/
theorem CallEffect.dictOk (effect : CallEffect s d m k new s') (ok : DictOk s d) : DictOk s' d := by
  have later : ∀ n ∈ linkedNodes s' d, (s'.nodes n).refcount = 1 ∧
      supported (s'.nodes n).value = true := by
    intro n member
    rcases effect.linked_from member with old | ⟨rfl, -, -⟩
    · obtain ⟨-, -, held, filled⟩ := effect.node_kept ok old member
      exact ⟨held.trans (ok.held n old), filled (ok.filled n old)⟩
    · cases effect with
      | kept same dicts allocated nodes =>
        unfold linkedNodes at member
        rw [dicts] at member
        exact absurd (ok.below _ member) (Nat.lt_irrefl _)
      | stored node found filled dicts allocated nodes =>
        unfold linkedNodes at member
        rw [dicts] at member
        exact absurd (ok.below _ member) (Nat.lt_irrefl _)
      | linked root absent room filled insert dicts allocated nodes =>
        rw [nodes, Function.update_self]
        exact ⟨rfl, filled⟩
      | dropped node root found gone remove dicts allocated nodes =>
        obtain ⟨before, after, was, is⟩ := remove_some remove
        unfold linkedNodes at member
        rw [dicts, Function.update_self, is] at member
        have inside : s.allocated ∈ linkedNodes s d := by
          unfold linkedNodes
          rw [was]
          rcases List.mem_append.mp member with member | member
          · exact List.mem_append_left _ member
          · exact List.mem_append_right _ (List.mem_cons_of_mem _ member)
        exact absurd (ok.below _ inside) (Nat.lt_irrefl _)
  have held := fun n member => (later n member).1
  have filled := fun n member => (later n member).2
  cases effect with
  | kept same dicts allocated nodes =>
    have nodesSame : linkedNodes s' d = linkedNodes s d := by
      unfold linkedNodes
      rw [dicts]
    refine ⟨?_, ?_, ?_, ?_, held, filled⟩
    · rw [nodesSame]
      exact fun n member => Nat.lt_of_lt_of_le (ok.below n member) allocated
    · rw [nodesSame]
      exact ok.once
    · rw [nodesSame, dicts]
      exact ok.count
    · rw [dicts]
      exact ok.bounded
  | stored node found filled' dicts allocated nodes =>
    have nodesSame : linkedNodes s' d = linkedNodes s d := by
      unfold linkedNodes
      rw [dicts]
    refine ⟨?_, ?_, ?_, ?_, held, filled⟩
    · rw [nodesSame, allocated]
      exact ok.below
    · rw [nodesSame]
      exact ok.once
    · rw [nodesSame, dicts]
      exact ok.count
    · rw [dicts]
      exact ok.bounded
  | linked root absent room filled' insert dicts allocated nodes =>
    obtain ⟨-, perm, -⟩ := insert_none insert
    have nodesNow : linkedNodes s' d = root.foreach := by
      unfold linkedNodes
      rw [dicts, Function.update_self]
    refine ⟨?_, ?_, ?_, ?_, held, filled⟩
    · rw [nodesNow, allocated]
      intro n member
      rcases List.mem_cons.mp (perm.subset member) with rfl | old
      · exact Nat.lt_succ_self _
      · exact Nat.lt_succ_of_lt (ok.below n old)
    · rw [nodesNow]
      refine perm.symm.nodup (List.nodup_cons.mpr ⟨fun member => ?_, ok.once⟩)
      exact absurd (ok.below _ member) (Nat.lt_irrefl _)
    · have length := perm.length_eq
      have count := ok.count
      unfold linkedNodes at count
      rw [List.length_cons] at length
      rw [nodesNow, dicts, Function.update_self, length]
      dsimp only
      omega
    · rw [dicts, Function.update_self]
      dsimp only
      omega
  | dropped node root found gone remove dicts allocated nodes =>
    obtain ⟨before, after, was, is⟩ := remove_some remove
    have nodesNow : linkedNodes s' d = before ++ after := by
      unfold linkedNodes
      rw [dicts, Function.update_self, is]
    have nodesWere : linkedNodes s d = before ++ node :: after := was
    have sub : (before ++ after).Sublist (before ++ node :: after) :=
      (List.sublist_cons_self node after).append_left before
    have bounded := ok.bounded
    have count := ok.count
    rw [nodesWere, List.length_append, List.length_cons] at count
    refine ⟨?_, ?_, ?_, ?_, held, filled⟩
    · rw [nodesNow, allocated]
      intro n member
      exact ok.below n (nodesWere ▸ sub.subset member)
    · rw [nodesNow]
      exact (nodesWere ▸ ok.once).sublist sub
    · rw [nodesNow, dicts, Function.update_self, List.length_append]
      dsimp only
      omega
    · rw [dicts, Function.update_self]
      dsimp only
      omega

end Invariant

section Runs

/-- No dictionary has been used yet. -/
def emptyCache : Kvcache ν where
  dicts := fun _ => kvcacheDictInit
  nodes := fun _ => ⟨[], 0, 0, 0, .nil, false⟩
  allocated := 0
  kvnodes := fun _ => []
  kvnodesCount := fun _ => 0

variable [Add ν]

/-- A call that has returned. -/
structure Returned (ν : Type) where
  module : U64
  call : KvcacheCall ν
  result : KvcacheResult ν

/-- Modules call on one dictionary in turn; the history has the latest call at its head. -/
def callsMachine (d : Nat) : Machine (List (Returned ν) × Kvcache ν) (U64 × KvcacheCall ν) where
  start := fun s => s.1 = [] ∧ s.2.dicts d = kvcacheDictInit
  step := fun s a =>
    let (result, s') := kvcacheCall s.2 d a.1 a.2
    some (⟨a.1, a.2, result⟩ :: s.1, s')

/-- The calls of some modules with some keys. -/
def callsOf (modules : Set U64) (keys : Set (List U8)) (_ : List (Returned ν) × Kvcache ν)
    (a : U64 × KvcacheCall ν) : Prop :=
  a.1 ∈ modules ∧ callKey a.2 ∈ keys

variable {modules : Set U64} {keys : Set (List U8)} {st st' : List (Returned ν) × Kvcache ν}
  {a : U64 × KvcacheCall ν}

theorem callsMachine_step (stepped : (callsMachine d).step st a = some st') :
    ∃ r, kvcacheCall st.2 d a.1 a.2 = (r, st'.2) ∧ st'.1 = ⟨a.1, a.2, r⟩ :: st.1 := by
  simp only [callsMachine, Option.some.injEq] at stepped
  exact ⟨_, by rw [← stepped], by rw [← stepped]⟩

/-- The nodes of a dictionary are those of its callers. -/
structure OwnedBy (modules : Set U64) (keys : Set (List U8)) (s : Kvcache ν) (d : Nat) : Prop where
  ok : DictOk s d
  owned : ∀ n ∈ linkedNodes s d, (s.nodes n).module ∈ modules ∧ (s.nodes n).key ∈ keys

theorem OwnedBy.start (started : (callsMachine d).start st) : OwnedBy modules keys st.2 d := by
  refine ⟨dictInit_ok started.2, fun n member => ?_⟩
  unfold linkedNodes at member
  rw [started.2] at member
  exact absurd member List.not_mem_nil

theorem OwnedBy.step (owned : OwnedBy modules keys st.2 d) (meets : callsOf modules keys st a)
    (stepped : (callsMachine d).step st a = some st') : OwnedBy modules keys st'.2 d := by
  obtain ⟨r, called, -⟩ := callsMachine_step stepped
  obtain ⟨new, -, effect⟩ := kvcacheCall_done owned.ok called
  refine ⟨effect.dictOk owned.ok, fun n member => ?_⟩
  rcases effect.linked_from member with old | ⟨-, key, module⟩
  · obtain ⟨key, module, -⟩ := effect.node_kept owned.ok old member
    rw [key, module]
    exact owned.owned n old
  · rw [key, module]
    exact meets

theorem OwnedBy.reachable (run : (callsMachine d).Reachable (callsOf modules keys) st) :
    OwnedBy modules keys st.2 d :=
  show (fun st : List (Returned ν) × Kvcache ν => OwnedBy modules keys st.2 d) st from
    run.invariant (fun _ started => OwnedBy.start started) fun _ _ _ owned meets stepped =>
      OwnedBy.step owned meets stepped

end Runs

end Ksrc.Guarantees.KvCacheCalls

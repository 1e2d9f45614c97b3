import Ksrc.Guarantees.KvCacheOrder

/-!
# The key/value cache as a finite map

For one module the nodes of a dictionary stay in the order of their keys, so a call changes the
value under the key it is given and under no other. Keys are compared as C strings, though: two
keys that agree up to their first NUL byte share a binding.
-/
namespace Ksrc.Guarantees.KvCacheMap
open Source Library KvCacheCalls KvCacheOrder RbTreeElements StringOrder

variable {ν : Type} {s s' : Kvcache ν} {d node : Nat} {m : U64} {k k' : List U8} {new : LuaValue ν}

section Nodes

/-- The text of the key of a node. -/
def nodeText (s : Kvcache ν) (node : Nat) : List Nat := keyText (s.nodes node).key

/-- A dictionary with nodes of one module, in the order of their keys. -/
structure MapOk (s : Kvcache ν) (d : Nat) (m : U64) : Prop where
  ok : DictOk s d
  module : ∀ n ∈ linkedNodes s d, (s.nodes n).module = m
  ascends : Ascends (nodeText s) (s.dicts d).root

theorem measures (own : ∀ n ∈ linkedNodes s d, (s.nodes n).module = m) :
    Measures (kvcacheProbe s.nodes m k) (nodeText s) (keyText k) (s.dicts d).root := by
  intro n member
  unfold kvcacheProbe kvcacheNodeCmp
  rw [own n member]
  dsimp only
  have less : strcmp (cString k) (cString (s.nodes n).key) < 0 ↔ keyText k < nodeText s n :=
    strcmp_neg
  have more : 0 < strcmp (cString k) (cString (s.nodes n).key) ↔ nodeText s n < keyText k :=
    strcmp_pos
  rw [← less, ← more]
  split
  · exact ⟨.rfl, .rfl⟩
  · have zero : ((m - m).setWidth 32).toInt = 0 := difference_zero.mpr rfl
    rw [zero]
    constructor
    · constructor <;> (intro _; omega)
    · constructor <;> (intro _; omega)

/-- The node of a key is the one with its text. -/
theorem MapOk.nodeAt_iff (map : MapOk s d m) :
    nodeAt s d m k = some node ↔ node ∈ linkedNodes s d ∧ nodeText s node = keyText k :=
  find_iff map.ascends (measures map.module)

theorem MapOk.nodeAt_none (map : MapOk s d m) :
    nodeAt s d m k = none ↔ ∀ n ∈ linkedNodes s d, nodeText s n ≠ keyText k :=
  find_none map.ascends (measures map.module)

theorem MapOk.valueAt_text (map : MapOk s d m) (same : keyText k' = keyText k) :
    valueAt s d m k' = valueAt s d m k := by
  unfold valueAt
  have nodes : nodeAt s d m k' = nodeAt s d m k := by
    apply Option.ext
    intro n
    rw [map.nodeAt_iff, map.nodeAt_iff, same]
  rw [nodes]

end Nodes

section Effect

theorem start_map (fresh : s.dicts d = kvcacheDictInit) : MapOk s d m := by
  have ok := dictInit_ok fresh
  have empty : (s.dicts d).root.foreach = [] := by
    rw [fresh]
    rfl
  refine ⟨ok, fun n member => ?_, ?_⟩
  · unfold linkedNodes at member
    rw [empty] at member
    exact absurd member List.not_mem_nil
  · unfold Ascends
    rw [empty]
    exact List.Pairwise.nil

/-- A call of the module keeps the order. -/
theorem MapOk.step (map : MapOk s d m) (effect : CallEffect s d m k new s') : MapOk s' d m := by
  have module : ∀ n ∈ linkedNodes s' d, (s'.nodes n).module = m := by
    intro n member
    rcases effect.linked_from member with old | ⟨-, -, module⟩
    · rw [(effect.node_kept map.ok old member).2.1]
      exact map.module n old
    · exact module
  have texts : ∀ n ∈ linkedNodes s d, n ∈ linkedNodes s' d → nodeText s' n = nodeText s n := by
    intro n old member
    unfold nodeText
    rw [(effect.node_kept map.ok old member).1]
  refine ⟨effect.dictOk map.ok, module, ?_⟩
  cases effect with
  | kept same dicts allocated nodes =>
    have linked : linkedNodes s' d = linkedNodes s d := by
      unfold linkedNodes
      rw [dicts]
    rw [dicts]
    exact map.ascends.congr fun n member => texts n member (linked ▸ member)
  | stored node found filled dicts allocated nodes =>
    have linked : linkedNodes s' d = linkedNodes s d := by
      unfold linkedNodes
      rw [dicts]
    rw [dicts]
    exact map.ascends.congr fun n member => texts n member (linked ▸ member)
  | linked root absent room filled insert dicts allocated nodes =>
    obtain ⟨-, perm, -⟩ := insert_none insert
    have linked : linkedNodes s' d = root.foreach := by
      unfold linkedNodes
      rw [dicts, Function.update_self]
    have before : Ascends (nodeText s') (s.dicts d).root := map.ascends.congr fun n member =>
      texts n member (linked ▸ perm.symm.subset (List.mem_cons_of_mem _ member))
    have newest : s'.nodes s.allocated = ⟨k, m, d, 1, new, false⟩ := by
      rw [nodes, Function.update_self]
    have agrees : Measures (kvcacheCmp s'.nodes s.allocated) (nodeText s') (nodeText s' s.allocated)
        (s.dicts d).root := by
      intro n member
      have later := measures (k := k) module n
      have inside : n ∈ linkedNodes s' d :=
        linked ▸ perm.symm.subset (List.mem_cons_of_mem _ member)
      unfold kvcacheCmp nodeText
      rw [newest]
      exact later inside
    rw [dicts, Function.update_self]
    exact insert_ascends before agrees insert
  | dropped node root found gone remove dicts allocated nodes =>
    rw [dicts, Function.update_self]
    have linked : linkedNodes s' d = root.foreach := by
      unfold linkedNodes
      rw [dicts, Function.update_self]
    have ascends : Ascends (nodeText s) root := remove_ascends map.ascends remove
    obtain ⟨before, after, was, is⟩ := remove_some remove
    refine ascends.congr fun n member => texts n ?_ (linked ▸ member)
    unfold linkedNodes
    rw [is] at member
    rw [was]
    exact ((List.sublist_cons_self node after).append_left before).subset member

/-- Under the key of the call the value is the new one. -/
theorem valueAt_here (effect : CallEffect s d m k new s') (map : MapOk s d m) :
    valueAt s' d m k = new := by
  have map' := map.step effect
  have whole := effect
  cases effect with
  | kept same dicts allocated nodes =>
    rw [same]
    have nodesSame : nodeAt s' d m k = nodeAt s d m k := by
      unfold nodeAt
      rw [dicts]
      refine find_congr fun n member => ?_
      unfold kvcacheProbe
      rw [nodes n (map.ok.below n member)]
    unfold valueAt
    rw [nodesSame]
    cases found : nodeAt s d m k with
    | none => rfl
    | some n =>
      dsimp only
      rw [nodes n (map.ok.below n (nodeAt_some found).1)]
  | stored node found filled dicts allocated nodes =>
    have member := (nodeAt_some found).1
    have still : node ∈ linkedNodes s' d := by
      unfold linkedNodes at *
      rw [dicts]
      exact member
    have text : nodeText s' node = keyText k := by
      unfold nodeText
      rw [(whole.node_kept map.ok member still).1]
      exact (map.nodeAt_iff.mp found).2
    rw [valueAt_some (map'.nodeAt_iff.mpr ⟨still, text⟩), nodes, Function.update_self]
  | linked root absent room filled insert dicts allocated nodes =>
    have still : s.allocated ∈ linkedNodes s' d := by
      unfold linkedNodes
      rw [dicts, Function.update_self]
      exact (insert_none insert).2.1.symm.subset List.mem_cons_self
    have text : nodeText s' s.allocated = keyText k := by
      unfold nodeText
      rw [nodes, Function.update_self]
    rw [valueAt_some (map'.nodeAt_iff.mpr ⟨still, text⟩), nodes, Function.update_self]
  | dropped node root found gone remove dicts allocated nodes =>
    rw [gone]
    apply valueAt_none
    rw [map'.nodeAt_none]
    intro n still text
    rcases whole.linked_from still with old | ⟨rfl, -, -⟩
    · have textWas : nodeText s n = keyText k := by
        unfold nodeText at text ⊢
        rw [← (whole.node_kept map.ok old still).1]
        exact text
      have same := map.nodeAt_iff.mpr ⟨old, textWas⟩
      rw [found] at same
      cases same
      obtain ⟨before, after, was, is⟩ := remove_some remove
      have once := map.ok.once
      unfold linkedNodes at still once
      rw [dicts, Function.update_self, is] at still
      rw [was] at once
      exact (List.nodup_middle.mp once).notMem still
    · have below := (whole.dictOk map.ok).below _ still
      rw [allocated] at below
      exact Nat.lt_irrefl _ below

/-- Under a key with another text it is the old one. -/
theorem valueAt_elsewhere (effect : CallEffect s d m k new s') (map : MapOk s d m)
    (apart : keyText k' ≠ keyText k) : valueAt s' d m k' = valueAt s d m k' := by
  have map' := map.step effect
  have elsewhere : ∀ n, nodeText s n = keyText k' → nodeAt s d m k ≠ some n := by
    intro n text found
    exact apart (text.symm.trans (map.nodeAt_iff.mp found).2)
  have nodes : nodeAt s' d m k' = nodeAt s d m k' := by
    apply Option.ext
    intro n
    rw [map.nodeAt_iff, map'.nodeAt_iff]
    constructor
    · rintro ⟨member, text⟩
      rcases effect.linked_from member with old | ⟨-, key, -⟩
      · refine ⟨old, ?_⟩
        unfold nodeText at text ⊢
        rw [← (effect.node_kept map.ok old member).1]
        exact text
      · unfold nodeText at text
        rw [key] at text
        exact absurd text.symm apart
    · rintro ⟨member, text⟩
      obtain ⟨still, same⟩ := effect.linked_kept map.ok member (elsewhere n text)
      refine ⟨still, ?_⟩
      unfold nodeText at text ⊢
      rw [same]
      exact text
  unfold valueAt
  rw [nodes]
  cases found : nodeAt s d m k' with
  | none => rfl
  | some n =>
    obtain ⟨member, text⟩ := map.nodeAt_iff.mp found
    dsimp only
    rw [(effect.linked_kept map.ok member (elsewhere n text)).2]

end Effect

section Runs

variable {keys : Set (List U8)} {st st' : List (Returned ν) × Kvcache ν} {a : U64 × KvcacheCall ν}
  {call : KvcacheCall ν} {r : KvcacheResult ν}

/-- The value of the last call that has stored one under a key, byte for byte, and succeeded. -/
def lastStored (k : List U8) : List (Returned ν) → LuaValue ν
  | [] => .nil
  | ⟨_, .set key value _, .value _⟩ :: earlier => if key = k then value else lastStored k earlier
  | ⟨_, .incr key _ _, .value value⟩ :: earlier => if key = k then value else lastStored k earlier
  | _ :: earlier => lastStored k earlier

theorem lastStored_error {e : Errno} {earlier : List (Returned ν)} :
    lastStored k (⟨m, call, .error e⟩ :: earlier) = lastStored k earlier := by
  cases call <;> rfl

variable [Add ν]

/-- What a counter is after an increment; a key without a value counts from nothing. -/
def incremented (old : LuaValue ν) (n : ν) : LuaValue ν :=
  match old with
  | .number old => .number (old + n)
  | _ => .number n

/-- What a map says of the binding is what the history says of it afterwards. -/
theorem lastStored_returned {full : Bool} {earlier : List (Returned ν)}
    (returned : bindingCall (lastStored (callKey call) earlier) full call = (r, new)) :
    lastStored k (⟨m, call, r⟩ :: earlier) =
      if k = callKey call then new else lastStored k earlier := by
  cases r with
  | error e =>
    rw [lastStored_error, bindingCall_error returned]
    split
    · rename_i here
      rw [here]
    · rfl
  | value v =>
    cases call with
    | set key value alloc =>
      rw [bindingCall_set_value returned, lastStored, callKey]
      simp only [eq_comm]
    | get key =>
      cases returned
      rw [lastStored, callKey]
      split
      · rename_i here
        rw [here]
      · rfl
      · intros
        simp_all
      · intros
        simp_all
    | incr key n alloc =>
      rw [bindingCall_incr_value returned, lastStored, callKey]
      simp only [eq_comm]

/-- The dictionary is a map from keys to values: `get` returns the last value that was stored,
`incr` adds to it, a call that fails changes no binding and not the count, and the count stays within
the capacity. -/
structure IsMap (s : List (Returned ν) × Kvcache ν) (keys : Set (List U8)) (d : Nat) (m : U64) :
    Prop where
  get : ∀ k ∈ keys, (kvcacheCall s.2 d m (.get k)).1 = .value (lastStored k s.1)
  incr : ∀ k ∈ keys, ∀ n alloc v, (kvcacheCall s.2 d m (.incr k n alloc)).1 = .value v →
    v = incremented (lastStored k s.1) n
  fails : ∀ call, callKey call ∈ keys → ∀ e, (kvcacheCall s.2 d m call).1 = .error e →
    ((kvcacheCall s.2 d m call).2.dicts d).count = (s.2.dicts d).count ∧
      ∀ k, (kvcacheCall (kvcacheCall s.2 d m call).2 d m (.get k)).1 = (kvcacheCall s.2 d m (.get k)).1
  bounded : 0 ≤ (s.2.dicts d).count ∧ (s.2.dicts d).count ≤ (s.2.dicts d).capacity

/-- What holds in every run: each key has the value of the history. -/
structure Follows (s : List (Returned ν) × Kvcache ν) (keys : Set (List U8)) (d : Nat) (m : U64) :
    Prop where
  map : MapOk s.2 d m
  values : ∀ k ∈ keys, valueAt s.2 d m k = lastStored k s.1

theorem Follows.step (distinct : Set.InjOn cString keys) (follows : Follows st keys d m)
    (meets : callsOf {m} keys st a) (stepped : (callsMachine d).step st a = some st') :
    Follows st' keys d m := by
  obtain ⟨isModule, isKey⟩ := meets
  obtain ⟨r, called, history⟩ := callsMachine_step stepped
  obtain ⟨module, call⟩ := a
  cases isModule
  obtain ⟨new, returned, effect⟩ := kvcacheCall_done follows.map.ok called
  rw [follows.values _ isKey] at returned
  refine ⟨follows.map.step effect, fun k inside => ?_⟩
  rw [history, lastStored_returned returned]
  split
  · rename_i here
    rw [here]
    exact valueAt_here effect follows.map
  · rename_i differs
    rw [valueAt_elsewhere effect follows.map fun same =>
      differs (distinct inside isKey (keyText_eq.mp same)), follows.values k inside]

theorem Follows.start (started : (callsMachine d).start st) : Follows st keys d m := by
  refine ⟨start_map started.2, fun k _ => ?_⟩
  rw [started.1]
  apply valueAt_none
  unfold nodeAt
  rw [started.2]
  rfl

theorem Follows.reachable (distinct : Set.InjOn cString keys)
    (run : (callsMachine d).Reachable (callsOf {m} keys) st) : Follows st keys d m :=
  run.invariant (fun _ started => Follows.start started) fun _ _ _ follows meets stepped =>
    Follows.step distinct follows meets stepped

theorem MapOk.called (map : MapOk s d m) (call : KvcacheCall ν) :
    CallDone s d m call (kvcacheCall s d m call).1 (kvcacheCall s d m call).2 :=
  kvcacheCall_done map.ok rfl

theorem MapOk.get (map : MapOk s d m) : (kvcacheCall s d m (.get k)).1 = .value (valueAt s d m k) := by
  obtain ⟨new, returned, -⟩ := map.called (.get k)
  exact (congrArg Prod.fst returned).symm

theorem incr_answer {old v new : LuaValue ν} {n : ν} {alloc full : Bool}
    (returned : bindingCall old full (.incr k n alloc) = (.value v, new)) : v = incremented old n := by
  cases old with
  | nil =>
    simp only [bindingCall] at returned
    split at returned
    · cases returned
    split at returned
    · cases returned
    · cases returned
      rfl
  | number old =>
    cases returned
    rfl
  | _ => cases returned

/-- A call that fails leaves the dictionary as it was. -/
theorem MapOk.fails {e : Errno} (map : MapOk s d m) (failed : (kvcacheCall s d m call).1 = .error e) :
    ((kvcacheCall s d m call).2.dicts d).count = (s.dicts d).count ∧
      ∀ k, valueAt (kvcacheCall s d m call).2 d m k = valueAt s d m k := by
  obtain ⟨new, returned, effect⟩ := map.called call
  rw [failed] at returned
  have unchanged := bindingCall_error returned
  have values : ∀ k, valueAt (kvcacheCall s d m call).2 d m k = valueAt s d m k := by
    intro k
    by_cases same : keyText k = keyText (callKey call)
    · rw [(map.step effect).valueAt_text same, map.valueAt_text same, valueAt_here effect map, unchanged]
    · exact valueAt_elsewhere effect map same
  refine ⟨?_, values⟩
  generalize kvcacheCall s d m call = done at effect
  cases effect with
  | kept same dicts allocated nodes => rw [dicts]
  | stored node found filled dicts allocated nodes => rw [dicts]
  | linked root absent room filled insert dicts allocated nodes =>
    rw [unchanged, valueAt_none absent] at filled
    cases filled
  | dropped node root found gone remove dicts allocated nodes =>
    have filled := map.ok.filled node (nodeAt_some found).1
    rw [← valueAt_some found, ← unchanged, gone] at filled
    cases filled

theorem Follows.isMap (follows : Follows st keys d m) : IsMap st keys d m := by
  have map := follows.map
  refine ⟨fun k inside => ?_, fun k inside n alloc v returned => ?_, fun call inside e failed => ?_, ?_⟩
  · rw [map.get, follows.values k inside]
  · obtain ⟨new, outcome, -⟩ := map.called (.incr k n alloc)
    rw [returned] at outcome
    rw [← follows.values k inside]
    exact incr_answer outcome
  · obtain ⟨count, values⟩ := map.fails failed
    refine ⟨count, fun k => ?_⟩
    obtain ⟨new, -, effect⟩ := map.called call
    rw [(map.step effect).get, map.get, values k]
  · refine ⟨?_, map.ok.bounded⟩
    rw [map.ok.count]
    exact Int.natCast_nonneg _

/-- Two keys with one text share a binding. -/
theorem shared_binding (isKey : k ∈ keys) (isKey' : k' ∈ keys) (same : cString k = cString k')
    (differs : k ≠ k') : ∃ st : List (Returned ν) × Kvcache ν,
      (callsMachine d).Reachable (callsOf {m} keys) st ∧ ¬ IsMap st keys d m := by
  have map : MapOk (emptyCache : Kvcache ν) d m := start_map rfl
  obtain ⟨new, returned, effect⟩ := map.called (.set k (.boolean true) true)
  generalize run : kvcacheCall (emptyCache : Kvcache ν) d m (.set k (.boolean true) true) = done
    at returned effect
  obtain ⟨r, after⟩ := done
  have fresh : bindingCall (valueAt (emptyCache : Kvcache ν) d m k) (full (emptyCache : Kvcache ν) d)
      (.set k (.boolean true) true) = (.value (.boolean true), .boolean true) := rfl
  rw [callKey, fresh] at returned
  cases returned
  have later : MapOk after d m := map.step effect
  have here : valueAt after d m k = .boolean true := valueAt_here effect map
  have ran : (callsMachine d).exec ([], (emptyCache : Kvcache ν)) [(m, .set k (.boolean true) true)] =
      some ([⟨m, .set k (.boolean true) true, .value (.boolean true)⟩], after) := by
    simp only [Machine.exec, callsMachine, run, Option.bind_some]
  refine ⟨_, ⟨([], emptyCache), ⟨rfl, rfl⟩, Machine.exec_reaches_guard ran fun a member st => ?_⟩,
    fun isMap => ?_⟩
  · rw [List.mem_singleton] at member
    rw [member]
    exact ⟨rfl, isKey⟩
  · have got := isMap.get k' isKey'
    rw [later.get, later.valueAt_text (keyText_eq.mpr same.symm), here] at got
    simp [lastStored, differs] at got

/-- For one module the dictionary is a map in every run exactly where no two of the keys agree up to
their first NUL byte. -/
theorem finite_map_iff : (∀ st : List (Returned ν) × Kvcache ν,
      (callsMachine d).Reachable (callsOf {m} keys) st → IsMap st keys d m) ↔
    Set.InjOn cString keys := by
  constructor
  · intro isMap k isKey k' isKey' same
    by_contra differs
    obtain ⟨st, run, isNot⟩ := shared_binding (ν := ν) (m := m) (d := d) isKey isKey' same differs
    exact isNot (isMap st run)
  · exact fun distinct st run => (Follows.reachable distinct run).isMap

/-- After `a\0b` is set, `a\0c` is found. -/
theorem nul_keys_share :
    let keys : Set (List U8) := {[97, 0, 98], [97, 0, 99]}
    ¬ ∀ st : List (Returned Int) × Kvcache Int,
      (callsMachine 0).Reachable (callsOf {0xffff888100000000} keys) st →
        IsMap st keys 0 0xffff888100000000 := by
  intro keys isMap
  obtain ⟨st, run, isNot⟩ : ∃ st : List (Returned Int) × Kvcache Int,
      (callsMachine 0).Reachable (callsOf {0xffff888100000000} keys) st ∧
        ¬ IsMap st keys 0 0xffff888100000000 :=
    shared_binding (.inl rfl) (.inr rfl) (by decide) (by decide)
  exact isNot (isMap st run)

end Runs

end Ksrc.Guarantees.KvCacheMap

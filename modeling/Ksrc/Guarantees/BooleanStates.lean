import Ksrc.Guarantees.LoadedSlots

/-!
# The booleans of a policy in force

Source: `security/selinux/ss/conditional.c` (`bool_isvalid`, `duplicate_policydb_bools`),
`security/selinux/ss/services.c` (`security_set_bools`, `security_preserve_bools`).

A change of the states keeps the names and where they are filed, and a state is 0 or 1.
-/
namespace Ksrc.Guarantees.BooleanStates

open Library Source PolicydbStages PoliciesInForce
open LoadedSlots SymbolTables

variable {p p' : Policydb} {bytes rest : List U8}

/-- What the loader establishes about the booleans and their states, and every change of them keeps. -/
structure BoolsKept (p : Policydb) : Prop where
  loaded : BoolsLoaded p
  states : ∀ e ∈ p.pBools.table.entries, e.2.state = 0 ∨ e.2.state = 1

section Tables

variable {κ δ : Type} {params : HashtabKeyParams κ} {set : κ × δ → κ × δ}

theorem chainSearch_map (keeps : ∀ e, (set e).1 = e.1) (key : κ) (chain : List (κ × δ)) :
    (hashtabChainSearch params.cmp key (chain.map set)).isSome =
      (hashtabChainSearch params.cmp key chain).isSome := by
  induction chain with
  | nil => rfl
  | cons cur next ih =>
    simp only [List.map_cons, hashtabChainSearch, keeps]
    split
    · rfl
    split
    · rfl
    · exact ih

/-- Whether a key is found does not depend on the data. -/
theorem hashtabSearch_map (keeps : ∀ e, (set e).1 = e.1) (h : Hashtab κ δ) (nel : Nat) (key : κ) :
    (hashtabSearch params { htable := h.htable.map (·.map set), nel } key).isSome =
      (hashtabSearch params h key).isSome := by
  have size : Hashtab.size { htable := h.htable.map (·.map set), nel } = h.size := by
    simp [Hashtab.size]
  have slot : hashtabSlot params { htable := h.htable.map (·.map set), nel } key =
      hashtabSlot params h key := by
    unfold hashtabSlot
    rw [size]
  have chain (i : Nat) : (h.htable.map (·.map set)).getD i [] = (h.htable.getD i []).map set := by
    rw [List.getD_eq_getElem?_getD, List.getD_eq_getElem?_getD, List.getElem?_map]
    cases h.htable[i]? with
    | none => rfl
    | some chain => rfl
  unfold hashtabSearch
  rw [size, slot]
  dsimp only
  rw [chain]
  split
  · rfl
  · exact chainSearch_map keeps key _

theorem entries_map (h : Hashtab κ δ) (nel : Nat) :
    Hashtab.entries { htable := h.htable.map (·.map set), nel } = h.entries.map set := by
  unfold Hashtab.entries
  rw [List.map_flatten]

end Tables

section States

variable {bools : Symtab CondBoolDatum}

/-- Every name of the table is found, and every state is 0 or 1. -/
structure TableKept (bools : Symtab CondBoolDatum) : Prop where
  keys : ∀ e ∈ bools.table.entries, (symtabSearch bools e.1).isSome = true
  states : ∀ e ∈ bools.table.entries, e.2.state = 0 ∨ e.2.state = 1

/-- The names of two tables are the same. -/
def SameNames (bools bools' : Symtab CondBoolDatum) : Prop :=
  bools'.nprim = bools.nprim ∧
    ∀ name, (∃ d, (name, d) ∈ bools.table.entries) ↔ ∃ d, (name, d) ∈ bools'.table.entries

/-- An entry with the state of the boolean of a name. -/
def withState (name : Name) (state : U32) (e : Name × CondBoolDatum) : Name × CondBoolDatum :=
  if e.1 = name then (e.1, { e.2 with state }) else e

theorem withState_key (name : Name) (state : U32) (e : Name × CondBoolDatum) :
    (withState name state e).1 = e.1 := by
  unfold withState
  split
  · rfl
  · rfl

theorem boolSetState_entries (name : Name) (state : U32) :
    (boolSetState bools name state).table.entries = bools.table.entries.map (withState name state) :=
  entries_map _ _

theorem boolSetState_kept {name : Name} {state : U32} (kept : TableKept bools)
    (valid : state = 0 ∨ state = 1) : TableKept (boolSetState bools name state) := by
  constructor
  · intro e member
    rw [boolSetState_entries] at member
    obtain ⟨old, before, rfl⟩ := List.mem_map.mp member
    rw [withState_key]
    have found := kept.keys old before
    unfold symtabSearch at found ⊢
    rw [← found]
    exact hashtabSearch_map (withState_key name state) bools.table _ _
  · intro e member
    rw [boolSetState_entries] at member
    obtain ⟨old, before, rfl⟩ := List.mem_map.mp member
    unfold withState
    split
    · exact valid
    · exact kept.states old before

theorem boolSetState_names (name : Name) (state : U32) :
    SameNames bools (boolSetState bools name state) := by
  refine ⟨rfl, fun key => ?_⟩
  rw [boolSetState_entries]
  constructor
  · rintro ⟨d, member⟩
    have moved := List.mem_map_of_mem (f := withState name state) member
    have same : withState name state (key, d) = (key, (withState name state (key, d)).2) :=
      Prod.ext (withState_key name state (key, d)) rfl
    rw [same] at moved
    exact ⟨_, moved⟩
  · rintro ⟨d, member⟩
    obtain ⟨⟨key', d'⟩, before, same⟩ := List.mem_map.mp member
    have key' : key' = key := by
      have kept := withState_key name state (key', d')
      rw [same] at kept
      exact kept.symm
    exact ⟨d', key' ▸ before⟩

theorem SameNames.refl (bools : Symtab CondBoolDatum) : SameNames bools bools :=
  ⟨rfl, fun _ => Iff.rfl⟩

theorem SameNames.trans {one two three : Symtab CondBoolDatum} (first : SameNames one two)
    (second : SameNames two three) : SameNames one three :=
  ⟨second.1.trans first.1, fun name => (first.2 name).trans (second.2 name)⟩

/-- The booleans that are kept from an earlier policy. -/
theorem preserveBools_kept {states : List (Name × U32)} (kept : TableKept bools)
    (valid : ∀ e ∈ states, e.2 = 0 ∨ e.2 = 1) :
    TableKept (states.foldl preserveBool bools) ∧
      SameNames bools (states.foldl preserveBool bools) := by
  induction states generalizing bools with
  | nil => exact ⟨kept, SameNames.refl bools⟩
  | cons e states ih =>
    have next : TableKept (preserveBool bools e) ∧ SameNames bools (preserveBool bools e) := by
      unfold preserveBool
      split
      · exact ⟨kept, SameNames.refl bools⟩
      · exact ⟨boolSetState_kept kept (valid e (by simp)), boolSetState_names _ _⟩
    obtain ⟨done, names⟩ := ih next.1 fun e member => valid e (by simp [member])
    exact ⟨done, next.2.trans names⟩

/-- A boolean that is found has a state of 0 or 1. -/
theorem condBoolState_valid (kept : TableKept p.pBools) {boolean state : U32}
    (read : condBoolState p boolean = .ok state) : state = 0 ∨ state = 1 := by
  unfold condBoolState at read
  simp only [bind, Except.bind, pure, Except.pure] at read
  split at read
  · cases read
  split at read
  · cases read
  rename_i name _
  cases found : symtabSearch p.pBools name with
  | none =>
    rw [found] at read
    cases read
  | some d =>
    rw [found] at read
    cases read
    exact kept.states (name, d) (symtabSearch_mem found)

theorem getBoolStates_valid (kept : TableKept p.pBools) {left i : Nat} {states : List (Name × U32)}
    (read : getBoolStates p left i = .ok states) : ∀ e ∈ states, e.2 = 0 ∨ e.2 = 1 := by
  induction left generalizing i states with
  | zero =>
    cases read
    intro e member
    cases member
  | succ left ih =>
    simp only [getBoolStates, exceptBind_ok] at read
    obtain ⟨state, one, entry, -, name, -, others, more, whole⟩ := read
    cases whole
    intro e member
    rcases List.mem_cons.mp member with rfl | member
    · exact condBoolState_valid kept one
    · exact ih more e member

end States

section Policies

/-- The states that the loader lets through. -/
theorem policydbRead_states (read : policydbRead bytes = .ok (p, rest)) :
    ∀ e ∈ p.pBools.table.entries, e.2.state = 0 ∨ e.2.state = 1 := by
  obtain ⟨stages, -⟩ := policydbRead_stages read
  obtain ⟨n, p₀, p₁, from', after, tables, noBools, -, -, same⟩ := stages.tables
  obtain ⟨s, rfl⟩ := PolicydbShape.symtabsRead_steps tables
  have table : p.pBools = s.pBools := same.bools
  have boolsRead := s.bools
  rw [table]
  split at boolsRead
  · let good (d : CondBoolDatum) : Prop := d.state = 0 ∨ d.state = 1
    have each : ∀ e ∈ s.pBools.table.entries, good e.2 := by
      refine PolicydbShape.symtabRead_entries (fun bytes key d rest one => ?_) boolsRead
      simp only [condReadBoolDatum, ByteReader.bind_ok, ByteReader.pure_ok] at one
      obtain ⟨value, _, -, state, _, -, len, _, -, _, _, valid, key, _, -, same, -⟩ := one
      cases same
      exact (ByteReader.require_ok.mp valid).1
    exact each
  · rw [← (ByteReader.pure_ok.mp boolsRead).1, noBools]
    intro e member
    cases member

theorem BoolsKept.table (kept : BoolsKept p) : TableKept p.pBools := ⟨kept.loaded.keys, kept.states⟩

theorem loaded_kept (read : policydbRead bytes = .ok (p, rest)) : BoolsKept p :=
  ⟨policydbRead_bools read, policydbRead_states read⟩

/-- The booleans of a policy changed as a table whose names are filed. -/
theorem BoolsKept.changed (kept : BoolsKept p) {bools : Symtab CondBoolDatum} (table : TableKept bools)
    (names : SameNames p.pBools bools) : BoolsKept { p with pBools := bools } := by
  refine ⟨⟨?_, table.keys, ?_, ?_⟩, table.states⟩
  · have slots := kept.loaded.slots
    dsimp only
    rw [names.1]
    exact slots
  · intro i name slot
    exact (names.2 name).mp (kept.loaded.named i name slot)
  · intro node member e inside
    dsimp only
    rw [names.1]
    exact kept.loaded.exprs node member e inside

/-- The expressions of a list are those of another. -/
def SameExprs (nodes nodes' : List CondNode) : Prop :=
  ∀ node ∈ nodes', ∃ old ∈ nodes, node.expr = old.expr

theorem evaluateCondList_exprs {nodes nodes' : List CondNode} {h h' : Avtab}
    (done : evaluateCondList p nodes h = .ok (h', nodes')) : SameExprs nodes nodes' := by
  induction nodes generalizing h nodes' with
  | nil =>
    cases done
    intro node member
    cases member
  | cons node rest ih =>
    unfold evaluateCondList at done
    split at done
    · cases done
    · rename_i one
      split at done
      · cases done
      · rename_i others
        cases done
        intro other member
        rcases List.mem_cons.mp member with rfl | member
        · refine ⟨node, by simp, ?_⟩
          unfold evaluateCondNode at one
          split at one
          · cases one
          · split at one
            · cases one
              rfl
            · cases one
              rfl
        · obtain ⟨old, before, same⟩ := ih others other member
          exact ⟨old, List.mem_cons_of_mem _ before, same⟩

theorem duplicateCondNodes_exprs {orig h h' : Avtab} {nodes nodes' : List CondNode}
    (done : duplicateCondNodes orig nodes h = .ok (h', nodes')) : SameExprs nodes nodes' := by
  induction nodes generalizing h nodes' with
  | nil =>
    cases done
    intro node member
    cases member
  | cons node rest ih =>
    unfold duplicateCondNodes at done
    split at done
    · cases done
    · rename_i one
      split at done
      · cases done
      · rename_i others
        cases done
        intro other member
        rcases List.mem_cons.mp member with rfl | member
        · refine ⟨node, by simp, ?_⟩
          unfold duplicateCondNode at one
          split at one
          · cases one
          · split at one
            · cases one
            · cases one
              rfl
        · obtain ⟨old, before, same⟩ := ih others other member
          exact ⟨old, List.mem_cons_of_mem _ before, same⟩

theorem evaluateCondNodes_kept (kept : BoolsKept p) (done : evaluateCondNodes p = .ok p') :
    BoolsKept p' := by
  unfold evaluateCondNodes at done
  split at done
  · cases done
  · rename_i evaluated
    cases done
    refine ⟨⟨kept.loaded.slots, kept.loaded.keys, kept.loaded.named, ?_⟩, kept.states⟩
    intro node member e inside
    obtain ⟨old, before, same⟩ := evaluateCondList_exprs evaluated node member
    exact kept.loaded.exprs old before e (same ▸ inside)

/-- The array after the names of a list are filed in it. -/
theorem condBoolsIndex_named {list : List (Name × CondBoolDatum)} {array array' : List (Option Name)}
    (done : hashtabMap condBoolsIndex list array = .ok array') :
    array'.length = array.length ∧ ∀ (i : Nat) (name : Name), array'[i]? = some (some name) →
      array[i]? = some (some name) ∨ ∃ d, (name, d) ∈ list := by
  induction list generalizing array with
  | nil =>
    cases done
    exact ⟨rfl, fun i name slot => .inl slot⟩
  | cons e list ih =>
    obtain ⟨length, named⟩ := ih done
    refine ⟨by rw [length, List.length_set], fun i name slot => ?_⟩
    rcases named i name slot with before | ⟨d, member⟩
    · rw [List.getElem?_set] at before
      split at before
      · split at before
        · cases before
          exact .inr ⟨e.2, by simp⟩
        · cases before
      · exact .inl before
    · exact .inr ⟨d, List.mem_cons_of_mem _ member⟩

theorem condPolicydbDup_kept (kept : BoolsKept p) (copied : condPolicydbDup p = .ok p') :
    BoolsKept p' := by
  have entries : (hashtabDuplicate (fun orig => orig) p.pBools.table).entries =
      p.pBools.table.entries.map fun orig => orig := entries_map _ _
  rw [List.map_id'] at entries
  unfold condPolicydbDup duplicatePolicydbBools at copied
  dsimp only at copied
  split at copied
  · cases copied
  · rename_i bools
    split at bools
    · cases bools
    · rename_i array indexed
      cases bools
      obtain ⟨length, named⟩ := condBoolsIndex_named indexed
      unfold duplicatePolicydbCondList at copied
      split at copied
      · cases copied
      · rename_i lists
        cases copied
        refine ⟨⟨?_, ?_, ?_, ?_⟩, ?_⟩
        · dsimp only
          rw [length, List.length_replicate]
        · intro e member
          dsimp only at member ⊢
          rw [entries] at member
          have found := kept.loaded.keys e member
          unfold symtabSearch at found ⊢
          rw [← found]
          exact hashtabSearch_map (fun _ => rfl) p.pBools.table _ _
        · intro i name slot
          dsimp only at slot ⊢
          rcases named i name slot with before | member
          · rw [List.getElem?_replicate] at before
            split at before
            · cases before
            · cases before
          · exact member
        · intro node member e inside
          obtain ⟨old, before, same⟩ := duplicateCondNodes_exprs lists node member
          exact kept.loaded.exprs old before e (same ▸ inside)
        · intro e member
          dsimp only at member
          rw [entries] at member
          exact kept.states e member

theorem setBoolStates_kept (kept : BoolsKept p) {values : List U32} {i : Nat}
    (set : setBoolStates values i p = .ok p') : BoolsKept p' := by
  induction values generalizing i p with
  | nil =>
    cases set
    exact kept
  | cons value values ih =>
    unfold setBoolStates at set
    split at set
    · refine ih (kept.changed (boolSetState_kept kept.table ?_) (boolSetState_names _ _)) set
      split
      · exact .inl rfl
      · exact .inr rfl
    · cases set

theorem securitySetBools_kept (kept : BoolsKept p) {values : List U32}
    (set : securitySetBools p values = .ok p') : BoolsKept p' := by
  unfold securitySetBools at set
  split at set
  · cases set
  split at set
  · cases set
  · rename_i copied
    split at set
    · cases set
    · rename_i states
      exact evaluateCondNodes_kept (setBoolStates_kept (condPolicydbDup_kept kept copied) states) set

theorem securityPreserveBools_kept {old : Policydb} (before : BoolsKept old) (kept : BoolsKept p)
    (done : securityPreserveBools old p = .ok p') : BoolsKept p' := by
  unfold securityPreserveBools at done
  split at done
  · cases done
  · rename_i states read
    obtain ⟨table, names⟩ := preserveBools_kept kept.table (getBoolStates_valid before.table read)
    exact evaluateCondNodes_kept (kept.changed table names) done

/-- The booleans of every policy in force. -/
theorem inForce_bools (inForce : InForce p) : BoolsKept p := by
  induction inForce with
  | loaded read => exact loaded_kept read
  | reloaded _ read done before => exact securityPreserveBools_kept before (loaded_kept read) done
  | switched _ set kept => exact securitySetBools_kept kept set

end Policies

end Ksrc.Guarantees.BooleanStates

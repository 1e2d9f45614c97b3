import Mathlib.Data.Finmap
import Ksrc.Guarantees.HashtabCopies

/-!
# A hash table is a finite map

Source: `security/selinux/ss/hashtab.h` (`hashtab_insert`, `hashtab_search`), `hashtab.c`. For any hash
function and any comparison that orders the keys, the chains of a table stay in order, so that a
walk that stops early misses no key. A sequence of calls is answered as a finite map with a limit
answers it.
-/
namespace Ksrc.Guarantees.HashtabMaps

open Library Source OrderedChains HashtabNodes
  HashtabCopies

variable {κ δ : Type} {params : HashtabKeyParams κ} {cmp : κ → κ → Int} {key : κ} {datum : δ}
  {chain : List (κ × δ)} {h h' : Hashtab κ δ} {e : Fault}

/-- A comparison that is a strict total order: 0 for the same key only. -/
structure KeyOrder (cmp : κ → κ → Int) : Prop where
  same : ∀ {a b}, cmp a b = 0 ↔ a = b
  flip : ∀ {a b}, cmp a b < 0 ↔ 0 < cmp b a
  trans : ∀ {a b c}, cmp a b < 0 → cmp b c < 0 → cmp a c < 0

namespace KeyOrder

variable (order : KeyOrder cmp)
include order

theorem not_less_iff {a b : κ} : ¬ cmp b a < 0 ↔ cmp a b < 0 ∨ a = b := by
  have flip := order.flip (a := b) (b := a)
  have same := order.same (a := a) (b := b)
  rw [flip, ← same]
  omega

/-- The order of the keys. -/
abbrev linear : LinearOrder κ where
  le a b := ¬ cmp b a < 0
  lt a b := cmp a b < 0
  le_refl a := by
    rw [order.not_less_iff]
    exact .inr rfl
  le_trans a b c := by
    rw [order.not_less_iff, order.not_less_iff, order.not_less_iff]
    rintro (first | rfl) (second | rfl)
    · exact .inl (order.trans first second)
    · exact .inl first
    · exact .inl second
    · exact .inr rfl
  lt_iff_le_not_ge a b := by
    rw [not_not, order.not_less_iff]
    exact ⟨fun less => ⟨.inl less, less⟩, And.right⟩
  le_antisymm a b := by
    intro notGreater notLess
    rcases order.not_less_iff.mp notGreater with less | same
    · exact absurd less notLess
    · exact same
  le_total a b := by
    rw [order.not_less_iff]
    by_cases less : cmp a b < 0
    · exact .inl (.inl less)
    · exact .inr less
  toDecidableLE _ _ := instDecidableNot

/-- A table compares its keys by their order. -/
theorem agrees : @Agrees κ κ order.linear cmp id fun _ => True :=
  @Agrees.mk κ κ order.linear cmp id _ (fun _ _ => Iff.rfl) order.same fun _ _ same => same

end KeyOrder

section Chains

/-- An insertion is refused for a key of the chain only. -/
theorem chainInsert_error (refused : hashtabChainInsert cmp key datum chain = .error e) :
    e = .err .EEXIST ∧ ∃ cur ∈ chain, cmp key cur.1 = 0 := by
  induction chain with
  | nil => cases refused
  | cons cur next ih =>
    unfold hashtabChainInsert at refused
    split at refused
    · rename_i equal
      cases refused
      exact ⟨rfl, cur, List.mem_cons_self, equal⟩
    split at refused
    · cases refused
    · split at refused
      · rename_i later
        cases refused
        obtain ⟨rfl, other, member, equal⟩ := ih later
        exact ⟨rfl, other, List.mem_cons_of_mem _ member, equal⟩
      · cases refused

end Chains

/-- Each chain is in the strict order of the comparison. -/
def InOrder (cmp : κ → κ → Int) (h : Hashtab κ δ) : Prop :=
  ∀ i, (h.htable.getD i []).Pairwise fun a b => cmp a.1 b.1 < 0

/-- A table of chains holds a finite map. -/
structure Represents [DecidableEq κ] (params : HashtabKeyParams κ) (h : Hashtab κ δ)
    (m : Finmap fun _ : κ => δ) : Prop where
  placed : Placed params h h.entries
  distinct : (h.entries.map Prod.fst).Nodup
  sorted : InOrder params.cmp h
  lookup : ∀ key datum, m.lookup key = some datum ↔ (key, datum) ∈ h.entries

section Represents

variable [DecidableEq κ] {m : Finmap fun _ : κ => δ}

theorem Represents.mem_iff (is : Represents params h m) :
    key ∈ m ↔ key ∈ h.entries.map Prod.fst := by
  rw [Finmap.mem_iff, List.mem_map]
  constructor
  · rintro ⟨datum, found⟩
    exact ⟨(key, datum), (is.lookup key datum).mp found, rfl⟩
  · rintro ⟨⟨key, datum⟩, member, rfl⟩
    exact ⟨datum, (is.lookup key datum).mpr member⟩

/-- `nel` is the number of keys. -/
theorem Represents.nel_eq (is : Represents params h m) : h.nel = m.keys.card := by
  have keys : m.keys = (h.entries.map Prod.fst).toFinset := by
    ext key
    rw [Finmap.mem_keys, is.mem_iff, List.mem_toFinset]
  rw [keys, List.toFinset_card_of_nodup is.distinct, List.length_map]
  exact is.placed.count

theorem represents_empty (size nel : Nat) (zero : nel = 0) :
    Represents params { htable := List.replicate size ([] : List (κ × δ)), nel } ∅ := by
  have none : Hashtab.entries { htable := List.replicate size ([] : List (κ × δ)), nel } = [] :=
    List.flatten_replicate_nil
  constructor
  · constructor
    · intro i e member
      simp only [replicate_chain] at member
      cases member
    · exact List.Perm.refl _
    · rw [none]
      exact zero
  · rw [none]
    exact List.nodup_nil
  · intro i
    simp only [replicate_chain]
    exact List.Pairwise.nil
  · intro key datum
    rw [none, Finmap.lookup_empty]
    simp

/-- A search is a look at the map. -/
theorem Represents.search (is : Represents params h m) (order : KeyOrder params.cmp) (key : κ) :
    hashtabSearch params h key = m.lookup key := by
  let _ := order.linear
  have sorted : ChainsSorted (fun _ => id) h := is.sorted
  apply Option.ext
  intro datum
  rw [is.lookup]
  by_cases empty : h.size = 0
  · have none : h.htable = [] := List.length_eq_zero_iff.mp empty
    unfold hashtabSearch Hashtab.entries
    rw [if_pos empty, none]
    simp
  · exact search_iff (fun _ => order.agrees)
      is.placed (fun _ _ => trivial) trivial sorted empty

/-- A key that is let in was not in the map, and is in it after the call. -/
theorem Represents.insert (is : Represents params h m) (order : KeyOrder params.cmp)
    (inserted : hashtabInsert params h key datum = .ok h') :
    key ∉ m ∧ h.size ≠ 0 ∧ h.nel ≠ hashtabMaxNodes ∧
      Represents params h' (m.insert key datum) := by
  let _ := order.linear
  have sorted : ChainsSorted (fun _ => id) h := is.sorted
  have step := hashtabInsert_inserted inserted
  have room : h.nel ≠ hashtabMaxNodes := by
    intro full
    unfold hashtabInsert at inserted
    rw [if_pos (Or.inr full)] at inserted
    cases inserted
  have absent : key ∉ m := by
    intro present
    obtain ⟨old, found⟩ := Finmap.mem_iff.mp present
    rw [← is.search order] at found
    rw [insert_exists room found] at inserted
    cases inserted
  refine ⟨absent, step.some, room, ?_⟩
  have placed := is.placed.insert step
  have perm := step.perm
  constructor
  · exact ⟨placed.slot, List.Perm.refl _, by
      rw [step.count, is.placed.count, perm.length_eq, List.length_cons]⟩
  · rw [(perm.map Prod.fst).nodup_iff, List.map_cons, List.nodup_cons, ← is.mem_iff]
    exact ⟨absent, is.distinct⟩
  · exact ChainsSorted.insert
      (fun _ => order.agrees) is.placed (fun _ _ => trivial) trivial sorted step
  · intro other value
    rw [perm.mem_iff, List.mem_cons, ← is.lookup]
    by_cases same : other = key
    · subst same
      rw [Finmap.lookup_insert, Finmap.lookup_eq_none.mpr absent]
      simp only [Option.some.injEq, Prod.mk.injEq, true_and, reduceCtorEq, or_false]
      exact eq_comm
    · rw [Finmap.lookup_insert_of_ne _ same]
      simp only [Prod.mk.injEq, same, false_and, false_or]

/-- A refused key is in the map, or the table has no room. -/
theorem Represents.refused (is : Represents params h m) (order : KeyOrder params.cmp)
    (refused : hashtabInsert params h key datum = .error e) :
    e = einval ∧ (h.size = 0 ∨ h.nel = hashtabMaxNodes) ∨
      e = .err .EEXIST ∧ h.nel ≠ hashtabMaxNodes ∧ key ∈ m := by
  unfold hashtabInsert at refused
  split at refused
  · rename_i full
    cases refused
    exact .inl ⟨rfl, full⟩
  rename_i space
  rw [not_or] at space
  split at refused
  · rename_i failed
    cases refused
    obtain ⟨rfl, cur, member, equal⟩ := chainInsert_error failed
    refine .inr ⟨rfl, space.2, ?_⟩
    rw [is.mem_iff, order.same.mp equal]
    exact List.mem_map_of_mem (is.placed.mem_chain.mp member).1
  · cases refused

end Represents

/-- A table in memory that holds a finite map. -/
structure Holds [DecidableEq κ] (params : HashtabKeyParams κ) (s : HashtabMemory κ δ)
    (m : Finmap fun _ : κ => δ) : Prop where
  table : ∃ chains, Laid s.nodes s.table chains ∧ Represents params (tableOf s chains) m

/-- What an insertion answers for a map of a table that has this size, and the map after it. -/
structure InsertAnswer [DecidableEq κ] (size : U32) (m m' : Finmap fun _ : κ => δ) (key : κ)
    (datum : δ) (slab : Slab (HashtabNode κ δ)) (rc : Except Fault Unit) : Prop where
  exists_iff : rc = .error (.err .EEXIST) ↔ key ∈ m ∧ m.keys.card < hashtabMaxNodes
  full_iff : rc = .error einval ↔ size = 0 ∨ m.keys.card = hashtabMaxNodes
  added : rc = .ok () → key ∉ m ∧ m' = m.insert key datum
  kept : rc ≠ .ok () → m' = m
  room : key ∉ m → size ≠ 0 → m.keys.card < hashtabMaxNodes →
    (∀ nodes, (slab.alloc nodes).isSome) → rc = .ok ()

/-- How a finite map answers a call. -/
def MapCall [DecidableEq κ] (size : U32) (m : Finmap fun _ : κ => δ) :
    HashtabCall κ δ → HashtabAnswer δ → (Finmap fun _ : κ => δ) → Prop
  | .insert key datum slab, .inserted rc, m' => InsertAnswer size m m' key datum slab rc
  | .search key, .found datum, m' => datum = m.lookup key ∧ m' = m
  | _, _, _ => False

/-- How a finite map answers a sequence of calls. -/
def MapRun [DecidableEq κ] (size : U32) :
    (Finmap fun _ : κ => δ) → List (HashtabCall κ δ) → List (HashtabAnswer δ) →
      (Finmap fun _ : κ => δ) → Prop
  | m, [], [], m' => m' = m
  | m, call :: calls, answer :: answers, m' =>
    ∃ mid, MapCall size m call answer mid ∧ MapRun size mid calls answers m'
  | _, _, _, _ => False

section Runs

variable [DecidableEq κ] {m : Finmap fun _ : κ => δ} {s : HashtabMemory κ δ}

theorem Holds.nel_eq (holds : Holds params s m) : s.table.nel.toNat = m.keys.card := by
  obtain ⟨chains, -, is⟩ := holds.table
  exact is.nel_eq

theorem Holds.limit (holds : Holds params s m) : m.keys.card ≤ hashtabMaxNodes := by
  have width := s.table.nel.isLt
  rw [← holds.nel_eq]
  unfold hashtabMaxNodes
  omega

theorem Holds.search (holds : Holds params s m) (order : KeyOrder params.cmp) (key : κ) :
    s.search params key = some (m.lookup key) := by
  obtain ⟨chains, laid, is⟩ := holds.table
  rw [search_refines laid, is.search order]

/-- A table without slots holds nothing. -/
theorem Holds.empty (holds : Holds params s m) (zero : s.table.size = 0) (key : κ) : key ∉ m := by
  obtain ⟨chains, laid, is⟩ := holds.table
  have none : chains = [] := by
    apply List.length_eq_zero_iff.mp
    rw [laid.size, zero]
    rfl
  rw [is.mem_iff, none]
  exact List.not_mem_nil

theorem insertAnswer_full {slab : Slab (HashtabNode κ δ)} {size : U32}
    (empty : size = 0 → key ∉ m) (full : size = 0 ∨ m.keys.card = hashtabMaxNodes) :
    InsertAnswer size m m key datum slab (.error einval) where
  exists_iff := by
    refine iff_of_false (by decide) ?_
    rintro ⟨present, below⟩
    rcases full with zero | limit
    · exact empty zero present
    · omega
  full_iff := iff_of_true rfl full
  added never := by cases never
  kept _ := rfl
  room _ some below _ := by
    rcases full with zero | limit
    · exact absurd zero some
    · omega

/-- One insertion. -/
theorem Holds.insert (holds : Holds params s m) (order : KeyOrder params.cmp) (key : κ) (datum : δ)
    (slab : Slab (HashtabNode κ δ)) :
    ∃ rc s' m', s.insert params slab key datum = some (rc, s') ∧ Holds params s' m' ∧
      s'.table.size = s.table.size ∧ InsertAnswer s.table.size m m' key datum slab rc := by
  have below := holds.limit
  obtain ⟨chains, laid, is⟩ := holds.table
  have sizes : (tableOf s chains).size = 0 ↔ s.table.size = 0 := by
    rw [tableOf_size laid]
    exact ⟨fun zero => BitVec.eq_of_toNat_eq zero, fun zero => by rw [zero]; rfl⟩
  have count : (tableOf s chains).nel = m.keys.card := is.nel_eq
  rcases insert_refines laid slab key datum with
    ⟨e, refused, inserted⟩ | ⟨h', linked, ⟨none, inserted⟩ | ⟨s', chains', got, inserted, laid', is', same⟩⟩
  · refine ⟨_, s, m, inserted, holds, rfl, ?_⟩
    rcases is.refused order refused with ⟨rfl, full⟩ | ⟨rfl, room, present⟩
    · rw [sizes, count] at full
      exact insertAnswer_full (fun zero => holds.empty zero key) full
    · rw [count] at room
      have some : s.table.size ≠ 0 := fun zero => holds.empty zero key present
      refine ⟨iff_of_true rfl ⟨present, by omega⟩, iff_of_false (by decide) ?_, ?_, fun _ => rfl, ?_⟩
      · exact fun full => full.elim some room
      · intro never
        cases never
      · exact fun absent => absurd present absent
  · obtain ⟨absent, some, room, -⟩ := is.insert order linked
    rw [count] at room
    rw [ne_eq, sizes] at some
    refine ⟨_, s, m, inserted, holds, rfl, ?_⟩
    refine ⟨iff_of_false (by decide) fun both => absent both.1, iff_of_false (by decide) ?_, ?_,
      fun _ => rfl, ?_⟩
    · exact fun full => full.elim some room
    · intro never
      cases never
    · intro _ _ _ always
      have here := always s.nodes
      rw [none] at here
      cases here
  · obtain ⟨absent, some, room, added⟩ := is.insert order linked
    rw [count] at room
    rw [ne_eq, sizes] at some
    refine ⟨_, s', m.insert key datum, inserted, ⟨chains', laid', is' ▸ added⟩, same, ?_⟩
    refine ⟨iff_of_false (by decide) fun both => absent both.1, iff_of_false (by decide) ?_,
      fun _ => ⟨absent, rfl⟩, fun failed => absurd rfl failed, fun _ _ _ _ => rfl⟩
    exact fun full => full.elim some room

theorem Holds.call (holds : Holds params s m) (order : KeyOrder params.cmp)
    (call : HashtabCall κ δ) :
    ∃ answer s' m', s.call params call = some (answer, s') ∧ Holds params s' m' ∧
      s'.table.size = s.table.size ∧ MapCall s.table.size m call answer m' := by
  cases call with
  | insert key datum slab =>
    obtain ⟨rc, s', m', inserted, holds', same, answer⟩ := holds.insert order key datum slab
    refine ⟨.inserted rc, s', m', ?_, holds', same, answer⟩
    unfold HashtabMemory.call
    dsimp only
    rw [inserted]
    rfl
  | search key =>
    refine ⟨.found (m.lookup key), s, m, ?_, holds, rfl, rfl, rfl⟩
    unfold HashtabMemory.call
    dsimp only
    rw [holds.search order]
    rfl

/-- A sequence of calls. -/
theorem Holds.run (holds : Holds params s m) (order : KeyOrder params.cmp)
    (calls : List (HashtabCall κ δ)) :
    ∃ answers s' m', s.run params calls = some (answers, s') ∧ Holds params s' m' ∧
      s'.table.size = s.table.size ∧ MapRun s.table.size m calls answers m' := by
  induction calls generalizing s m with
  | nil => exact ⟨[], s, m, rfl, holds, rfl, rfl⟩
  | cons call rest ih =>
    obtain ⟨answer, mid, mapMid, called, holdsMid, same, mapCall⟩ := holds.call order call
    obtain ⟨answers, s', m', ran, holds', same', mapRun⟩ := ih holdsMid
    rw [same] at same' mapRun
    refine ⟨answer :: answers, s', m', ?_, holds', same', mapMid, mapCall, mapRun⟩
    rw [HashtabMemory.run, called]
    dsimp only
    rw [ran]
    rfl

/-- A table after `hashtab_init` holds the empty map, whatever else is in memory. -/
theorem holds_init (params : HashtabKeyParams κ) {nelHint : U32} {allocated : Bool}
    {table : HashtabObject}
    (made : hashtabObjectInit nelHint allocated = .ok table) (nodes : Heap (HashtabNode κ δ)) :
    Holds params { nodes, table } ∅ := by
  have shape : ∃ size : Nat, size < 2 ^ 32 ∧
      table = { htable := List.replicate size none, size := BitVec.ofNat 32 size, nel := 0 } := by
    unfold hashtabObjectInit at made
    dsimp only at made
    split at made
    · cases made
      exact ⟨0, by decide, rfl⟩
    split at made
    · cases made
    · rename_i small
      split at made
      · cases made
        unfold hashtabMaxSize at small
        exact ⟨_, by omega, rfl⟩
      · cases made
  obtain ⟨size, small, rfl⟩ := shape
  refine ⟨List.replicate size [], ⟨⟨?_, ?_, ?_⟩, ?_, ?_⟩, ?_⟩
  · rw [List.length_replicate, List.length_replicate]
  · intro i inside
    rw [List.length_replicate] at inside
    simp only [List.getD_eq_getElem?_getD, List.getElem?_replicate, inside, if_true, Option.getD_some]
    rfl
  · rw [List.flatten_replicate_nil]
    exact List.nodup_nil
  · rw [List.length_replicate]
    simp only [BitVec.toNat_ofNat]
    omega
  · rw [List.flatten_replicate_nil]
    rfl
  · have table : tableOf
        { nodes, table := { htable := List.replicate size none, size := BitVec.ofNat 32 size, nel := 0 } }
        (List.replicate size []) = { htable := List.replicate size [], nel := 0 } := by
      unfold tableOf
      rw [List.map_replicate]
      rfl
    rw [table]
    exact represents_empty size 0 rfl

omit [DecidableEq κ] in
/-- One more call at the end of a sequence. -/
theorem run_snoc {s mid s' : HashtabMemory κ δ} {calls : List (HashtabCall κ δ)}
    {answers : List (HashtabAnswer δ)} {call : HashtabCall κ δ} {answer : HashtabAnswer δ}
    (ran : s.run params calls = some (answers, mid)) (called : mid.call params call = some (answer, s')) :
    s.run params (calls ++ [call]) = some (answers ++ [answer], s') := by
  induction calls generalizing s answers with
  | nil =>
    cases ran
    rw [List.nil_append, List.nil_append, HashtabMemory.run, called]
    rfl
  | cons first rest ih =>
    rw [HashtabMemory.run] at ran
    rw [List.cons_append, HashtabMemory.run]
    cases stepped : s.call params first with
    | none =>
      rw [stepped] at ran
      cases ran
    | some out =>
      obtain ⟨a, next⟩ := out
      rw [stepped] at ran
      dsimp only at ran ⊢
      obtain ⟨⟨as, last⟩, later, same⟩ := Option.map_eq_some_iff.mp ran
      cases same
      rw [ih later]
      rfl

end Runs

/-- On a table that `hashtab_init` has made, any sequence of insertions and searches is answered
as a finite map answers it, an insertion that fails changes nothing, and `hashtab_duplicate` either
copies the chains of a table in their order or undoes all it has done. -/
theorem hashtab_right [DecidableEq κ] (params : HashtabKeyParams κ) (order : KeyOrder params.cmp) :
    (∀ (nelHint : U32) (allocated : Bool) (table : HashtabObject),
      hashtabObjectInit nelHint allocated = .ok table →
      ∀ (nodes : Heap (HashtabNode κ δ)) (calls : List (HashtabCall κ δ)),
        ∃ answers s m,
          HashtabMemory.run params { nodes, table } calls = some (answers, s) ∧
          MapRun table.size ∅ calls answers m ∧ s.table.nel.toNat = m.keys.card ∧
          ∀ key, s.search params key = some (m.lookup key)) ∧
    (∀ (s s' : HashtabMemory κ δ) (slab : Slab (HashtabNode κ δ)) (key : κ) (datum : δ) (e : Fault),
      s.insert params slab key datum = some (.error e, s') → s' = s) ∧
    ∀ (σ : Type) (ops : DuplicateOps κ δ σ) (slab : Slab (HashtabNode κ δ)) (allocated : Bool)
      (nodes : Heap (HashtabNode κ δ)) (orig : HashtabObject) (chains : List (List Nat)) (args : σ),
      Laid nodes orig chains →
      ∃ rc s, HashtabMemory.duplicate ops slab allocated nodes orig args = some (rc, s) ∧
        (rc = .ok () ∧ Duplicated ops nodes orig chains s ∨
          rc = .error (.err .ENOMEM) ∧ Undone nodes s ∧ (allocated = false ∨ Fails ops slab)) := by
  refine ⟨?_, ?_, ?_⟩
  · intro nelHint allocated table made nodes calls
    have start := holds_init params made nodes
    obtain ⟨answers, s, m, ran, holds, -, mapRun⟩ := start.run order calls
    exact ⟨answers, s, m, ran, mapRun, holds.nel_eq, holds.search order⟩
  · intro s s' slab key datum e refused
    exact insert_error refused
  · intro σ ops slab allocated nodes orig chains args laid
    exact duplicate_right ops slab allocated args laid

section Full

/-- An allocation that never fails: it takes an address above all that are in use. -/
def freshSlab {ν : Type} : Slab ν where
  alloc h := some ((h.cells.map Prod.fst).foldr max 0 + 1)
  unused h a got := by
    cases got
    have below : ∀ addresses : List Nat, ∀ b ∈ addresses, b ≤ addresses.foldr max 0 := by
      intro addresses
      induction addresses with
      | nil =>
        intro b member
        cases member
      | cons first rest ih =>
        intro b member
        rcases List.mem_cons.mp member with rfl | behind
        · exact le_max_left _ _
        · exact (ih b behind).trans (le_max_right _ _)
    cases here : h.get ((h.cells.map Prod.fst).foldr max 0 + 1) with
    | none => rfl
    | some v =>
      have member := List.mem_map_of_mem (f := Prod.fst) (Heap.mem_of_get here)
      have bound := below _ _ member
      omega

/-- Numbers as keys, in their order. -/
def natParams : HashtabKeyParams Nat where
  hash key := BitVec.ofNat 32 key
  cmp a b := (a : Int) - b

theorem natOrder : KeyOrder natParams.cmp := by
  constructor
  · intro a b
    simp only [natParams]
    omega
  · intro a b
    simp only [natParams]
    omega
  · intro a b c
    simp only [natParams]
    omega

/-- A fresh table of one slot. -/
def oneSlot : HashtabObject := { htable := [none], size := 1, nel := 0 }

/-- One node in memory, on the only chain of a table. -/
theorem oneNode_laid : Laid (Heap.set .empty 1 { key := 7, datum := (), next := none } :
    Heap (HashtabNode Nat Unit)) { htable := [some 1], size := 1, nel := 1 } [[1]] := by
  refine ⟨⟨rfl, fun i inside => ?_, by decide⟩, rfl, rfl⟩
  have first : i = 0 := by simpa using inside
  subst first
  exact ⟨rfl, _, Heap.get_set_same _ _ _, rfl⟩

theorem hashtab_right_numbers :
    (∃ answers s m,
      HashtabMemory.run natParams { nodes := .empty, table := oneSlot }
        [.insert 2 () freshSlab, .insert 1 () freshSlab, .search 2] = some (answers, s) ∧
      MapRun oneSlot.size ∅ [.insert 2 () freshSlab, .insert 1 () freshSlab, .search 2] answers m ∧
      s.table.nel.toNat = m.keys.card ∧ ∀ key, s.search natParams key = some (m.lookup key)) ∧
    ∃ rc s, HashtabMemory.duplicate
        { copy := fun key datum args => (.ok (key, datum), args), destroy := fun _ _ args => args }
        freshSlab true (Heap.set .empty 1 { key := 7, datum := (), next := none })
        { htable := [some 1], size := 1, nel := 1 } () = some (rc, s) :=
  have right := @hashtab_right Nat Unit _ natParams natOrder
  ⟨right.1 1 true oneSlot rfl .empty _,
    (right.2.2 Unit _ freshSlab true _ _ _ () oneNode_laid).imp fun _ out =>
      out.imp fun _ both => both.1⟩

/-- Insertions of the first numbers. -/
def fillCalls (n : Nat) : List (HashtabCall Nat Unit) :=
  (List.range n).map fun key => .insert key () freshSlab

theorem fill (n : Nat) (limit : n ≤ hashtabMaxNodes) :
    ∃ answers s m,
      HashtabMemory.run natParams { nodes := .empty, table := oneSlot } (fillCalls n) =
        some (answers, s) ∧
      Holds natParams s m ∧ s.table.size = 1 ∧ m.keys = Finset.range n := by
  induction n with
  | zero =>
    have start := holds_init natParams
      (show hashtabObjectInit 1 true = .ok oneSlot from rfl) (.empty : Heap (HashtabNode Nat Unit))
    exact ⟨[], _, ∅, rfl, start, rfl, rfl⟩
  | succ n ih =>
    obtain ⟨answers, mid, m, ran, holds, size, keys⟩ := ih (by omega)
    obtain ⟨rc, s, m', inserted, holds', same, answer⟩ := holds.insert natOrder n () freshSlab
    have absent : n ∉ m := by
      rw [← Finmap.mem_keys, keys]
      exact Finset.notMem_range_self
    have room : m.keys.card < hashtabMaxNodes := by
      rw [keys, Finset.card_range]
      omega
    have ok := answer.room absent (by rw [size]; decide) room fun _ => rfl
    have called : mid.call natParams (.insert n () freshSlab) = some (.inserted rc, s) := by
      unfold HashtabMemory.call
      dsimp only
      rw [inserted]
      rfl
    refine ⟨answers ++ [.inserted rc], s, m', ?_, holds', same.trans size, ?_⟩
    · unfold fillCalls at ran ⊢
      rw [List.range_succ, List.map_append]
      exact run_snoc ran called
    · rw [(answer.added ok).2]
      ext key
      rw [Finmap.mem_keys, Finmap.mem_insert, ← Finmap.mem_keys, keys, Finset.mem_range,
        Finset.mem_range]
      omega

/-- A full table answers `-EINVAL` for a key that is present. -/
theorem full_table_einval :
    ∃ answers s,
      HashtabMemory.run natParams { nodes := .empty, table := oneSlot } (fillCalls hashtabMaxNodes) =
        some (answers, s) ∧
      s.search natParams 0 = some (some ()) ∧
      s.insert natParams freshSlab 0 () = some (.error einval, s) := by
  obtain ⟨answers, s, m, ran, holds, -, keys⟩ := fill hashtabMaxNodes le_rfl
  obtain ⟨rc, s', m', inserted, -, -, answer⟩ := holds.insert natOrder 0 () freshSlab
  have full : m.keys.card = hashtabMaxNodes := by rw [keys, Finset.card_range]
  have present : 0 ∈ m := by
    rw [← Finmap.mem_keys, keys, Finset.mem_range]
    unfold hashtabMaxNodes
    omega
  have refused := answer.full_iff.mpr (.inr full)
  rw [refused] at inserted
  have same := insert_error inserted
  rw [same] at inserted
  refine ⟨answers, s, ran, ?_, inserted⟩
  obtain ⟨datum, found⟩ := Finmap.mem_iff.mp present
  rw [holds.search natOrder, found]

end Full

end Ksrc.Guarantees.HashtabMaps

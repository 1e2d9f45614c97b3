import Ksrc.Source.NetLabels

/-!
# The network label caches under policy commits

Source: `security/selinux/netport.c`, `netnode.c`, `netif.c`, `ibpkey.c`.

The slow path asks the policy while it holds the lock of its cache, and the flush
of a commit takes that lock after the new policy is installed. So a label of an
older policy is either in the table before the flush or was asked for after it.
-/
namespace Ksrc.Guarantees.NetLabelCaches

open Library Source

/-- Counts agree with the lists, limits hold, keys are distinct in each bucket. -/
def TableOk : (c : NetCache) → c.Table → Prop
  | .netif => fun table => CountedTable.Ok selNetifHashMax LabelEntry.key table
  | .netnode => fun table => ∀ i, Bucket.Ok selNetnodeHashBktLimit LabelEntry.key (table i)
  | .netport => fun table => ∀ i, Bucket.Ok selNetportHashBktLimit LabelEntry.key (table i)
  | .ibpkey => fun table => ∀ i, Bucket.Ok selPkeyHashBktLimit LabelEntry.key (table i)

theorem labelFind_none {κ : Type} [DecidableEq κ] {list : List (LabelEntry κ)} {key : κ}
    (absent : labelFind list key = none) : ∀ x ∈ list, x.key ≠ key := by
  intro x inside equal
  have differs := List.find?_eq_none.mp absent x inside
  simp [equal] at differs

section Buckets

variable {κ : Type} {hash : κ → Fin (2 ^ 8)} {limit : Nat}
  {table : BucketArray κ} {entry : LabelEntry κ}

theorem bucketInsert_ok [DecidableEq κ] (ok : ∀ i, Bucket.Ok limit LabelEntry.key (table i))
    (absent : labelFind (table (hash entry.key)).list entry.key = none) (i : Fin (2 ^ 8)) :
    Bucket.Ok limit LabelEntry.key (bucketInsert hash limit table entry i) := by
  simp only [bucketInsert]
  by_cases equal : i = hash entry.key
  · subst equal
    rw [Function.update_self]
    exact Bucket.insert_ok (ok _) (labelFind_none absent)
  · rw [Function.update_of_ne equal]
    exact ok i

theorem mem_bucketInsert {i : Fin (2 ^ 8)} {x : LabelEntry κ}
    (member : x ∈ (bucketInsert hash limit table entry i).list) :
    x = entry ∨ x ∈ (table i).list := by
  simp only [bucketInsert] at member
  by_cases equal : i = hash entry.key
  · subst equal
    rw [Function.update_self] at member
    exact Bucket.mem_insert member
  · rw [Function.update_of_ne equal] at member
    exact .inr member

end Buckets

/-- The table a slow path leaves, from what its search found. -/
def slowTable {κ σ : Type} (found : Option (LabelEntry κ)) (insert : LabelEntry κ → σ)
    (table : σ) (key : κ) (answer : Except Errno U32) (allocated : Bool) : σ :=
  match found, answer with
  | none, .ok sid => if allocated then insert { key, sid } else table
  | _, _ => table

theorem empty_ok (c : NetCache) : TableOk c c.empty := by
  cases c with
  | netif => exact CountedTable.empty_ok
  | _ => exact fun _ => Bucket.empty_ok

theorem empty_holds (c : NetCache) (e : LabelEntry c.Key) : ¬ c.Holds c.empty e := by
  cases c <;> rintro ⟨i, member⟩ <;> simp [NetCache.empty, CountedTable.empty, Bucket.empty] at member

theorem insert_ok {c : NetCache} {table : c.Table} {entry : LabelEntry c.Key}
    (ok : TableOk c table) (absent : c.find table entry.key = none) :
    TableOk c (c.insert table entry) := by
  cases c with
  | netif =>
    simp only [NetCache.insert]
    cases done : selNetifInsert table entry with
    | none => exact ok
    | some table' => exact CountedTable.insert_ok ok (labelFind_none absent) done
  | _ => exact fun i => bucketInsert_ok ok absent i

theorem insert_holds {c : NetCache} {table : c.Table} {entry x : LabelEntry c.Key}
    (holds : c.Holds (c.insert table entry) x) : x = entry ∨ c.Holds table x := by
  cases c with
  | netif =>
    obtain ⟨i, member⟩ := holds
    simp only [NetCache.insert] at member
    cases done : selNetifInsert table entry with
    | none =>
      rw [done] at member
      exact .inr ⟨i, member⟩
    | some table' =>
      rw [done] at member
      rcases CountedTable.mem_insert done member with ⟨equal, -⟩ | old
      · exact .inl equal
      · exact .inr ⟨i, old⟩
  | _ =>
    obtain ⟨i, member⟩ := holds
    rcases mem_bucketInsert member with equal | old
    · exact .inl equal
    · exact .inr ⟨i, old⟩

theorem flush_ok {c : NetCache} {table : c.Table} (ok : TableOk c table) :
    TableOk c (c.flush table) := by
  cases c with
  | netif => exact CountedTable.flush_ok ok
  | _ => exact fun _ => Bucket.empty_ok

theorem flush_holds (c : NetCache) (table : c.Table) (e : LabelEntry c.Key) :
    ¬ c.Holds (c.flush table) e := by
  cases c <;> rintro ⟨i, member⟩ <;>
    simp [NetCache.flush, selNetifFlush, selNetnodeFlush, selNetportFlush, selIbPkeyFlush,
      bucketFlush, CountedTable.flush, Bucket.empty] at member

/-- The lowest policy number a label in the table may come from. -/
def floor (s : NetMachine) (c : NetCache) : Nat :=
  match s.commit with
  | none => s.returned
  | some rest => if c ∈ rest then s.returned else s.policy

/-- The policy answered `sid` for `key` under policy number `from` or a later one. -/
def Answered (s : NetMachine) (oldest : Nat) (c : NetCache) (e : LabelEntry c.Key) : Prop :=
  ∃ p, oldest ≤ p ∧ { cache := c, key := e.key, sid := e.sid, policy := p } ∈ s.answers

/-- The key of the holder's search. -/
def phaseKey {κ : Type} : LockPhase κ → κ
  | .missed key => key
  | .answered key _ => key

structure CellOk (s : NetMachine) (c : NetCache) (cell : NetCell c) : Prop where
  table : TableOk c cell.table
  absent : ∀ t phase, cell.holder = some (t, phase) → c.find cell.table (phaseKey phase) = none
  pending : ∀ t key sid, cell.holder = some (t, .answered key sid) →
    Answered s (floor s c) c { key, sid }
  labels : ∀ e, c.Holds cell.table e → Answered s (floor s c) c e

structure NetOk (s : NetMachine) : Prop where
  cells : ∀ c, CellOk s c (s.cell c)
  ordered : s.returned ≤ s.policy
  settled : s.commit = none → s.returned = s.policy

theorem floor_le_policy {s : NetMachine} (ok : NetOk s) (c : NetCache) :
    floor s c ≤ s.policy := by
  have := ok.ordered
  simp only [floor]
  split
  · exact this
  · split <;> omega

theorem returned_le_floor {s : NetMachine} (ok : NetOk s) (c : NetCache) :
    s.returned ≤ floor s c := by
  have := ok.ordered
  simp only [floor]
  split
  · exact Nat.le_refl _
  · split <;> omega

/-- More answers and a lower floor keep a cell. -/
theorem CellOk.weaken {s s' : NetMachine} {c : NetCache} {cell : NetCell c} (ok : CellOk s c cell)
    (answers : s.answers ⊆ s'.answers) (lower : floor s' c ≤ floor s c) : CellOk s' c cell := by
  have answered : ∀ e, Answered s (floor s c) c e → Answered s' (floor s' c) c e := by
    rintro e ⟨p, above, member⟩
    exact ⟨p, Nat.le_trans lower above, answers member⟩
  exact ⟨ok.table, ok.absent, fun t key sid held => answered _ (ok.pending t key sid held),
    fun e holds => answered _ (ok.labels e holds)⟩

/-- A cell without a holder that keeps only records it had. -/
theorem CellOk.subset {s : NetMachine} {c : NetCache} {cell : NetCell c} {table : c.Table}
    (ok : CellOk s c cell) (bounded : TableOk c table)
    (old : ∀ e, c.Holds table e → c.Holds cell.table e) : CellOk s c ⟨table, none⟩ :=
  ⟨bounded, by simp, by simp, fun e holds => ok.labels e (old e holds)⟩

/-- Replacing one cell keeps `NetOk`, if nothing else moves. -/
theorem setCell_ok {s : NetMachine} {c : NetCache} {cell : NetCell c} (ok : NetOk s)
    (cellOk : CellOk s c cell) : NetOk (s.setCell c cell) := by
  refine ⟨fun c' => ?_, ok.ordered, ok.settled⟩
  by_cases equal : c' = c
  · subst equal
    have placed : (s.setCell c' cell).cell c' = cell := Function.update_self _ _ _
    rw [placed]
    exact cellOk.weaken (List.Subset.refl _) (Nat.le_refl _)
  · have placed : (s.setCell c cell).cell c' = s.cell c' := Function.update_of_ne equal _ _
    rw [placed]
    exact (ok.cells c').weaken (List.Subset.refl _) (Nat.le_refl _)

theorem netOk_start {s : NetMachine} (start : NetStart s) : NetOk s := by
  refine ⟨fun c => ?_, Nat.le_of_eq start.returned, fun _ => start.returned⟩
  rw [start.cell c]
  exact ⟨empty_ok c, by simp, by simp, fun e holds => absurd holds (empty_holds c e)⟩

theorem flushCell_ok {s : NetMachine} (ok : NetOk s) (c : NetCache) : NetOk (s.flushCell c) :=
  setCell_ok ok ⟨flush_ok (ok.cells c).table, by simp, by simp,
    fun e holds => absurd holds (flush_holds c _ e)⟩

theorem lock_ok {s s' : NetMachine} {c : NetCache} {t : Nat} {key : c.Key} (ok : NetOk s)
    (stepped : netStep s (.lock c t key) = some s') : NetOk s' := by
  simp only [netStep] at stepped
  split at stepped
  · cases stepped
  · split at stepped <;> cases stepped
    · exact ok
    · rename_i absent
      have cell := ok.cells c
      refine setCell_ok ok ⟨cell.table, ?_, ?_, cell.labels⟩
      · rintro t' phase held
        cases held
        exact absent
      · rintro t' key' sid held
        cases held

theorem query_ok {s s' : NetMachine} {c : NetCache} {answer : Except Errno U32} (ok : NetOk s)
    (stepped : netStep s (.query c answer) = some s') : NetOk s' := by
  simp only [netStep] at stepped
  split at stepped
  · rename_i t key held
    have cell := ok.cells c
    split at stepped
    · cases stepped
      exact setCell_ok ok (cell.subset cell.table fun _ holds => holds)
    · rename_i sid
      cases stepped
      let logged : NetMachine := { s with
        answers := { cache := c, key, sid, policy := s.policy } :: s.answers }
      have loggedOk : NetOk logged := by
        refine ⟨fun c' => ?_, ok.ordered, ok.settled⟩
        exact (ok.cells c').weaken (List.subset_cons_self _ _) (Nat.le_refl _)
      refine setCell_ok loggedOk ⟨cell.table, ?_, ?_, (loggedOk.cells c).labels⟩
      · rintro t' phase equal
        cases equal
        exact cell.absent t (.missed key) held
      · rintro t' key' sid' equal
        cases equal
        exact ⟨s.policy, floor_le_policy ok c, List.mem_cons_self⟩
  · cases stepped

theorem insert_step_ok {s s' : NetMachine} {c : NetCache} {allocated : Bool} (ok : NetOk s)
    (stepped : netStep s (.insert c allocated) = some s') : NetOk s' := by
  simp only [netStep] at stepped
  split at stepped
  · rename_i t key sid held
    cases stepped
    have cell := ok.cells c
    cases allocated with
    | false => exact setCell_ok ok (cell.subset cell.table fun _ holds => holds)
    | true =>
      refine setCell_ok ok ⟨insert_ok cell.table (cell.absent t _ held), by simp, by simp, ?_⟩
      intro e holds
      rcases insert_holds holds with rfl | old
      · exact cell.pending t key sid held
      · exact cell.labels e old
  · cases stepped

theorem netdevDown_ok {s s' : NetMachine} {key : NetifKey} (ok : NetOk s)
    (stepped : netStep s (.netdevDown key) = some s') : NetOk s' := by
  simp only [netStep] at stepped
  split at stepped
  · cases stepped
  · rename_i free
    cases stepped
    have cell := ok.cells .netif
    rw [free]
    refine setCell_ok ok (cell.subset (CountedTable.remove_ok cell.table) ?_)
    rintro e ⟨i, member⟩
    exact ⟨i, CountedTable.mem_remove member⟩

theorem install_ok {s s' : NetMachine} (ok : NetOk s)
    (stepped : netStep s .install = some s') : NetOk s' := by
  simp only [netStep] at stepped
  split at stepped
  · cases stepped
    refine ⟨fun c => ?_, Nat.le_succ_of_le ok.ordered, by simp⟩
    refine (ok.cells c).weaken (List.Subset.refl _) ?_
    have every : c ∈ resetCallbacks := by cases c <;> decide
    have low : floor { s with policy := s.policy + 1, commit := some resetCallbacks } c =
        s.returned := by simp [floor, every]
    rw [low]
    exact returned_le_floor ok c
  · cases stepped

theorem flushNext_ok {s s' : NetMachine} (ok : NetOk s)
    (stepped : netStep s .flushNext = some s') : NetOk s' := by
  simp only [netStep] at stepped
  split at stepped
  · rename_i c rest running
    split at stepped
    · cases stepped
    · cases stepped
      have flushed := flushCell_ok ok c
      refine ⟨fun c' => ?_, flushed.ordered, by simp⟩
      by_cases equal : c' = c
      · subst equal
        have placed : (s.flushCell c').cell c' = ⟨c'.flush (s.cell c').table, none⟩ :=
          Function.update_self _ _ _
        rw [placed]
        exact ⟨flush_ok (ok.cells c').table, by simp, by simp,
          fun e holds => absurd holds (flush_holds c' _ e)⟩
      · refine (flushed.cells c').weaken (List.Subset.refl _) ?_
        have same : (s.flushCell c).commit = some (c :: rest) := running
        simp [floor, same, equal]
  · cases stepped

theorem commitReturn_ok {s s' : NetMachine} (ok : NetOk s)
    (stepped : netStep s .commitReturn = some s') : NetOk s' := by
  simp only [netStep] at stepped
  split at stepped
  · rename_i done
    cases stepped
    refine ⟨fun c => ?_, Nat.le_refl _, fun _ => rfl⟩
    refine (ok.cells c).weaken (List.Subset.refl _) ?_
    simp [floor, done]
  · cases stepped

theorem netStep_ok {s s' : NetMachine} {a : NetAction} (ok : NetOk s)
    (stepped : netStep s a = some s') : NetOk s' := by
  cases a with
  | fastFind c key =>
    cases stepped
    exact ok
  | lock c t key => exact lock_ok ok stepped
  | query c answer => exact query_ok ok stepped
  | insert c allocated => exact insert_step_ok ok stepped
  | netdevDown key => exact netdevDown_ok ok stepped
  | install => exact install_ok ok stepped
  | flushNext => exact flushNext_ok ok stepped
  | resetFlush c =>
    obtain ⟨-, rfl⟩ := netStep_resetFlush stepped
    exact flushCell_ok ok c
  | commitReturn => exact commitReturn_ok ok stepped

/-- In every state of every run: counts, limits and keys of the four tables are in
order, and each cached label was given under the policy of the last commit whose
flushes have returned, or under a later one. -/
theorem label_caches_fresh_and_bounded {s : NetMachine}
    (run : netMachine.Reachable Machine.free s) :
    (∀ c, TableOk c (s.cell c).table) ∧
      ∀ c e, c.Holds (s.cell c).table e → Answered s s.returned c e := by
  have ok : NetOk s := run.invariant (fun _ => netOk_start) fun _ _ _ ok _ => netStep_ok ok
  refine ⟨fun c => (ok.cells c).table, fun c e holds => ?_⟩
  obtain ⟨p, above, member⟩ := (ok.cells c).labels e holds
  exact ⟨p, Nat.le_trans (returned_le_floor ok c) above, member⟩

/-- A lookup under the first policy, a commit with its four flushes, and the same
lookup under the second. -/
def relabelRun (key : NetportKey) : List NetAction :=
  [.lock .netport 0 key, .query .netport (.ok 7), .insert .netport true, .install,
    .flushNext, .flushNext, .flushNext, .flushNext, .commitReturn,
    .lock .netport 0 key, .query .netport (.ok 9), .insert .netport true]

def bootNet : NetMachine :=
  { cell := fun c => ⟨c.empty, none⟩, policy := 0, commit := none, returned := 0, answers := [] }

theorem label_caches_fresh_after_commit :
    ∃ s, netMachine.exec bootNet (relabelRun ⟨80, 6⟩) = some s ∧ s.returned = 1 ∧
      NetCache.Holds .netport (s.cell .netport).table ⟨⟨80, 6⟩, 9⟩ ∧
      (∀ c, TableOk c (s.cell c).table) ∧
      ∀ c e, c.Holds (s.cell c).table e → Answered s s.returned c e := by
  obtain ⟨s, ran, returned, holds⟩ : ∃ s, netMachine.exec bootNet (relabelRun ⟨80, 6⟩) = some s ∧
      s.returned = 1 ∧ NetCache.Holds .netport (s.cell .netport).table ⟨⟨80, 6⟩, 9⟩ :=
    ⟨_, rfl, rfl, selNetportHashfn ⟨80, 6⟩, List.mem_cons_self⟩
  exact ⟨s, ran, returned, holds, label_caches_fresh_and_bounded
    ⟨bootNet, ⟨fun _ => rfl, rfl, rfl, rfl⟩, Machine.exec_reaches ran⟩⟩

end Ksrc.Guarantees.NetLabelCaches

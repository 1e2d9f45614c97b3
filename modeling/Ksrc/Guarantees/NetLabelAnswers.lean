import Ksrc.Guarantees.NetLabelCaches

/-!
# The answers of the network label lookups

Source: `security/selinux/netport.c`, `netnode.c`, `netif.c`, `ibpkey.c` (`*_sid`,
`*_sid_slow`). A lookup that finds no record answers what the policy answers. Only the
key lookup of InfiniBand lets a failed allocation of the record become its result,
against the comment above that allocation.
-/
namespace Ksrc.Guarantees.NetLabelAnswers

open Library Source

/-- The object a key stands for: an interface that is there, or any other key. -/
def ObjectExists (c : NetCache) (device : Bool) : Prop := c = .netif → device = true

/-- The lookup gives what the policy query gives, and `-ENOENT` for an interface that is
not there; an error or a failed allocation leaves the cache as it was. -/
structure AnswersQuery (c : NetCache) (device : Bool) (answer : Except Errno U32)
    (allocated : Bool) (table : c.Table) (result : Except Errno U32 × c.Table) : Prop where
  sid : ObjectExists c device → ∀ sid, answer = .ok sid → result.1 = .ok sid
  error : ObjectExists c device → ∀ e, answer = .error e → result = (.error e, table)
  absent : ¬ ObjectExists c device → result = (.error .ENOENT, table)
  uncached : allocated = false → result.2 = table

/-- The record the lookup returns without asking: one seen without the lock, or, for an
object that exists, one found under it. -/
def recordUsed (c : NetCache) (seen table : c.Table) (key : c.Key) (device : Bool) :
    Option (LabelEntry c.Key) :=
  match c.find seen key with
  | some entry => some entry
  | none => if c = .netif ∧ device = false then none else c.find table key

/-- What an allocation failure does to the answer of a query that succeeded. -/
def noMemory : NetCache → U32 → Except Errno U32
  | .ibpkey => fun _ => .error .ENOMEM
  | _ => .ok

/-- The four lookups as one. -/
theorem sid_eq (c : NetCache) (seen table : c.Table) (key : c.Key) (device : Bool)
    (answer : Except Errno U32) (allocated : Bool) :
    c.sid seen table key device answer allocated =
      labelSid c.find seen table key
        (if c = .netif ∧ device = false then (.error .ENOENT, table)
         else labelSidSlow c.find c.insert (noMemory c) table key answer allocated) := by
  cases c with
  | netif =>
    cases device with
    | false => rfl
    | true => rfl
  | netnode => rfl
  | netport => rfl
  | ibpkey => rfl

theorem sid_record {c : NetCache} {seen table : c.Table} {key : c.Key} {device : Bool}
    {entry : LabelEntry c.Key} (used : recordUsed c seen table key device = some entry)
    (answer : Except Errno U32) (allocated : Bool) :
    c.sid seen table key device answer allocated = (.ok entry.sid, table) := by
  rw [sid_eq, labelSid]
  rw [recordUsed] at used
  cases fast : c.find seen key with
  | some first =>
    rw [fast] at used
    cases used
    rfl
  | none =>
    rw [fast] at used
    dsimp only at used ⊢
    split at used
    · cases used
    · rename_i present
      rw [if_neg present]
      simp only [labelSidSlow, used]

/-- Without a record and with the object the slow path goes past its search. -/
theorem sid_asked {c : NetCache} {seen table : c.Table} {key : c.Key} {device : Bool}
    (unused : recordUsed c seen table key device = none) (present : ObjectExists c device)
    (answer : Except Errno U32) (allocated : Bool) :
    c.sid seen table key device answer allocated =
        labelSidSlow c.find c.insert (noMemory c) table key answer allocated ∧
      c.find table key = none := by
  have here : ¬ (c = .netif ∧ device = false) := by
    intro gone
    have there := present gone.1
    rw [gone.2] at there
    cases there
  rw [recordUsed] at unused
  rw [sid_eq, labelSid]
  cases fast : c.find seen key with
  | some first =>
    rw [fast] at unused
    cases unused
  | none =>
    rw [fast] at unused
    dsimp only at unused ⊢
    rw [if_neg here] at unused ⊢
    exact ⟨rfl, unused⟩

theorem sid_refused {c : NetCache} {seen table : c.Table} {key : c.Key} {device : Bool}
    (unused : recordUsed c seen table key device = none) (present : ObjectExists c device)
    (e : Errno) (allocated : Bool) :
    c.sid seen table key device (.error e) allocated = (.error e, table) := by
  have asked := sid_asked unused present (.error e) allocated
  rw [asked.1]
  simp only [labelSidSlow, asked.2]

theorem sid_answered {c : NetCache} {seen table : c.Table} {key : c.Key} {device : Bool}
    (unused : recordUsed c seen table key device = none) (present : ObjectExists c device)
    (sid : U32) (allocated : Bool) :
    c.sid seen table key device (.ok sid) allocated =
      if allocated then (.ok sid, c.insert table { key, sid }) else (noMemory c sid, table) := by
  have asked := sid_asked unused present (.ok sid) allocated
  rw [asked.1]
  simp only [labelSidSlow, asked.2]

theorem sid_absent {c : NetCache} {seen table : c.Table} {key : c.Key} {device : Bool}
    (unused : recordUsed c seen table key device = none) (gone : ¬ ObjectExists c device)
    (answer : Except Errno U32) (allocated : Bool) :
    c.sid seen table key device answer allocated = (.error .ENOENT, table) := by
  have away : c = .netif ∧ device = false := by
    by_contra here
    apply gone
    intro netif
    cases device with
    | true => rfl
    | false => exact absurd ⟨netif, rfl⟩ here
  rw [recordUsed] at unused
  rw [sid_eq, labelSid]
  cases fast : c.find seen key with
  | some first =>
    rw [fast] at unused
    cases unused
  | none => exact if_pos away

/-- A record found has the query's SID and its object is there; without one, the key
lookup of InfiniBand is not left without memory for a key the policy labels. -/
def AnswerKept (c : NetCache) (device : Bool) (answer : Except Errno U32) (allocated : Bool) :
    Option (LabelEntry c.Key) → Prop
  | some entry => ObjectExists c device ∧ answer = .ok entry.sid
  | none => c = .ibpkey → allocated = false → ∃ e, answer = .error e

section Answers

variable {c : NetCache} {seen table : c.Table} {key : c.Key} {device allocated : Bool}
  {answer : Except Errno U32}

theorem answersQuery_record {entry : LabelEntry c.Key}
    (used : recordUsed c seen table key device = some entry) :
    AnswersQuery c device answer allocated table
        (c.sid seen table key device answer allocated) ↔
      ObjectExists c device ∧ answer = .ok entry.sid := by
  rw [sid_record used]
  constructor
  · intro right
    by_cases present : ObjectExists c device
    · refine ⟨present, ?_⟩
      cases answer with
      | ok sid => exact (right.sid present sid rfl).symm
      | error e =>
        have refused := right.error present e rfl
        cases refused
    · have refused := right.absent present
      cases refused
  · rintro ⟨present, rfl⟩
    constructor
    · intro _ sid equal
      exact equal
    · intro _ e equal
      cases equal
    · intro gone
      exact absurd present gone
    · intro _
      rfl

theorem answersQuery_refused {e : Errno} (unused : recordUsed c seen table key device = none)
    (present : ObjectExists c device) :
    AnswersQuery c device (.error e) allocated table
      (c.sid seen table key device (.error e) allocated) := by
  rw [sid_refused unused present]
  constructor
  · intro _ sid equal
    cases equal
  · intro _ other equal
    cases equal
    rfl
  · intro gone
    exact absurd present gone
  · intro _
    rfl

theorem answersQuery_cached {sid : U32} (unused : recordUsed c seen table key device = none)
    (present : ObjectExists c device) :
    AnswersQuery c device (.ok sid) true table (c.sid seen table key device (.ok sid) true) := by
  rw [sid_answered unused present]
  constructor
  · intro _ other equal
    cases equal
    rfl
  · intro _ e equal
    cases equal
  · intro gone
    exact absurd present gone
  · intro failed
    cases failed

/-- Without memory for the record three lookups still answer, the fourth does not. -/
theorem answersQuery_uncached {sid : U32} (unused : recordUsed c seen table key device = none)
    (present : ObjectExists c device) :
    AnswersQuery c device (.ok sid) false table
        (c.sid seen table key device (.ok sid) false) ↔ c ≠ .ibpkey := by
  rw [sid_answered unused present]
  constructor
  · intro right ibpkey
    subst ibpkey
    have answered := right.sid present sid rfl
    cases answered
  · intro other
    have kept : noMemory c sid = .ok sid := by
      cases c with
      | ibpkey => exact absurd rfl other
      | netif => rfl
      | netnode => rfl
      | netport => rfl
    constructor
    · intro _ wanted equal
      cases equal
      exact kept
    · intro _ e equal
      cases equal
    · intro gone
      exact absurd present gone
    · intro _
      rfl

theorem answersQuery_absent (unused : recordUsed c seen table key device = none)
    (gone : ¬ ObjectExists c device) :
    AnswersQuery c device answer allocated table
      (c.sid seen table key device answer allocated) := by
  rw [sid_absent unused gone]
  constructor
  · intro present
    exact absurd present gone
  · intro present
    exact absurd present gone
  · intro _
    rfl
  · intro _
    rfl

end Answers

/-- The lookups answer as the query does exactly when the record used, or the memory for
a new one, does not come between. -/
theorem sid_answersQuery_iff (c : NetCache) (seen table : c.Table) (key : c.Key)
    (device : Bool) (answer : Except Errno U32) (allocated : Bool) :
    AnswersQuery c device answer allocated table
        (c.sid seen table key device answer allocated) ↔
      AnswerKept c device answer allocated (recordUsed c seen table key device) := by
  cases used : recordUsed c seen table key device with
  | some entry => exact answersQuery_record used
  | none =>
    by_cases present : ObjectExists c device
    · cases answer with
      | error e =>
        constructor
        · intro _ _ _
          exact ⟨e, rfl⟩
        · intro _
          exact answersQuery_refused used present
      | ok sid =>
        cases allocated with
        | true =>
          constructor
          · intro _ _ failed
            cases failed
          · intro _
            exact answersQuery_cached used present
        | false =>
          rw [answersQuery_uncached used present]
          constructor
          · intro other ibpkey
            exact absurd ibpkey other
          · intro kept ibpkey
            obtain ⟨e, refused⟩ := kept ibpkey rfl
            cases refused
    · constructor
      · intro _ ibpkey
        have netif : c = .netif := by
          by_contra other
          exact present fun netif => absurd netif other
        rw [netif] at ibpkey
        cases ibpkey
      · intro _
        exact answersQuery_absent used present

/-- A key the policy labels, no record, and no memory for one: the lookup fails. -/
theorem ibpkey_out_of_memory : ¬ ∀ (c : NetCache) (seen table : c.Table) (key : c.Key)
    (device : Bool) (answer : Except Errno U32) (allocated : Bool),
    recordUsed c seen table key device = none →
      AnswersQuery c device answer allocated table
        (c.sid seen table key device answer allocated) := by
  intro all
  have right := all .ibpkey (NetCache.empty .ibpkey) (NetCache.empty .ibpkey)
    { subnetPrefix := 0xfe80000000000000, pkey := 0x7fff } true (.ok 7) false rfl
  have answered := right.sid (fun netif => by cases netif) 7 rfl
  cases answered

end Ksrc.Guarantees.NetLabelAnswers

import Ksrc.Guarantees.SidtabTable
import Ksrc.Source.SidtabConvert

/-!
# What one call of `sidtab_context_to_sid` does to its table

Source: `security/selinux/ss/sidtab.c`. A call finds a SID, or appends an entry, or
fails and leaves every entry, chain and initial SID as it was.
-/
namespace Ksrc.Guarantees.SidtabCalls

open Library Source SidtabTree SidtabTable

variable {j : Jhash} {s s' target target' : Sidtab} {context : Context}

/-- The SID the table has for a context, 0 for none. -/
def sidOf (j : Jhash) (s : Sidtab) (context : Context) : U32 :=
  contextToSid j s context (contextComputeHash j context)

/-- The three outcomes of a call, on the table it is made on. -/
inductive CallEffect (j : Jhash) (s s' : Sidtab) (context : Context) : Except Errno U32 → Prop
  | found (sid : U32) (known : sidOf j s context = sid) (real : sid ≠ 0) (same : s' = s) :
      CallEffect j s s' context (.ok sid)
  | created (dst : EntryRef) (unknown : sidOf j s context = 0) (live : s.frozen = false)
      (below : s.count.toNat + 1 < 2 ^ 32)
      (shaped : RadixTree.Shaped sidtabInnerShift s'.tree) (app : Appended j s s' context dst) :
      CallEffect j s s' context (.ok (indexToSid s.count))
  | failed (e : Errno) (unknown : sidOf j s context = 0) (same : Unchanged j s s')
      (frozen : s'.frozen = s.frozen) (converting : s'.converting = s.converting)
      (table : ∀ first, TableOk j s first → TableOk j s' first) :
      CallEffect j s s' context (.error e)

theorem count_below (room : ¬ sidtabMax ≤ s.count) : s.count.toNat + 1 < 2 ^ 32 := by
  simp only [sidtabMax, BitVec.le_def] at room
  simp at room
  omega

theorem write_write (s : Sidtab) (dst : EntryRef) (e₁ e₂ : SidtabEntry) :
    (s.write dst e₁).write dst e₂ = s.write dst e₂ := by
  cases dst with
  | isid sid => simp [Sidtab.write]
  | leaf a slot => simp [Sidtab.write, RadixTree.setSlot]

section Outcomes

variable {allocs targetAllocs : List Bool} {fault : Option Context} {converted : ConvertOutcome}

/-- The table with a new entry that is written and counted, but not linked. -/
def withEntry (j : Jhash) (s : Sidtab) (count : U32) (tree : RadixTree SidtabEntry) (dst : EntryRef)
    (context : Context) : Sidtab :=
  let hash := contextComputeHash j context
  { Sidtab.write { s with tree } dst { sid := indexToSid count, hash, context } with
    count := count + 1 }

/-- The outcomes of the live conversion of one context. -/
inductive NewConverted (j : Jhash) (target : Sidtab) (count : U32) (converted : ConvertOutcome)
    (allocs : List Bool) : Except Errno Unit → Sidtab → Prop
  | noLeaf (tree : RadixTree SidtabEntry) (rest : List Bool)
      (lookup : sidtabDoLookup target.tree count true allocs = some (none, tree, rest)) :
      NewConverted j target count converted allocs (.error .ENOMEM) { target with tree }
  | failed (dst : EntryRef) (tree : RadixTree SidtabEntry) (rest : List Bool) (e : Errno)
      (left : Context) (entry : SidtabEntry)
      (lookup : sidtabDoLookup target.tree count true allocs = some (some dst, tree, rest))
      (isError : converted = .error (e, left)) :
      NewConverted j target count converted allocs (.error e) ({ target with tree }.write dst entry)
  | added (dst : EntryRef) (tree : RadixTree SidtabEntry) (rest : List Bool) (context : Context)
      (linked : Sidtab)
      (lookup : sidtabDoLookup target.tree count true allocs = some (some dst, tree, rest))
      (isOk : converted = .ok context)
      (link : (withEntry j target count tree dst context).hashAdd
        (j.hashMin (contextComputeHash j context)) dst = some linked) :
      NewConverted j target count converted allocs (.ok ()) linked

theorem sidtabConvertNew_cases {count : U32} {result : Except Errno Unit}
    (done : sidtabConvertNew j target count converted allocs = some (result, target')) :
    NewConverted j target count converted allocs result target' := by
  unfold sidtabConvertNew at done
  cases lookup : sidtabDoLookup target.tree count true allocs with
  | none =>
    rw [lookup] at done
    cases done
  | some out =>
    obtain ⟨dst, tree, rest⟩ := out
    rw [lookup] at done
    cases dst with
    | none =>
      cases done
      exact .noLeaf tree rest lookup
    | some dst =>
      cases converted with
      | error failure =>
        cases done
        exact .failed dst tree rest _ _ _ lookup rfl
      | ok context =>
        obtain ⟨linked, link, outcome⟩ := Option.map_eq_some_iff.mp done
        cases outcome
        exact .added dst tree rest context _ lookup rfl link

/-- The outcomes of a call, on its table and on the target of the conversion. -/
inductive CallOutcome (j : Jhash) (s target : Sidtab) (context : Context)
    (allocs targetAllocs : List Bool) (fault : Option Context) (converted : ConvertOutcome) :
    Except Errno U32 → Sidtab → Sidtab → Prop
  | found (known : sidOf j s context ≠ 0) :
      CallOutcome j s target context allocs targetAllocs fault converted
        (.ok (sidOf j s context)) s target
  | frozen (unknown : sidOf j s context = 0) :
      CallOutcome j s target context allocs targetAllocs fault converted (.error .ESTALE) s target
  | full (unknown : sidOf j s context = 0) :
      CallOutcome j s target context allocs targetAllocs fault converted (.error .EOVERFLOW) s target
  | noLeaf (tree : RadixTree SidtabEntry) (rest : List Bool) (unknown : sidOf j s context = 0)
      (lookup : sidtabDoLookup s.tree s.count true allocs = some (none, tree, rest)) :
      CallOutcome j s target context allocs targetAllocs fault converted
        (.error .ENOMEM) { s with tree } target
  | notCopied (dst : EntryRef) (tree : RadixTree SidtabEntry) (rest : List Bool)
      (entry : SidtabEntry) (unknown : sidOf j s context = 0) (room : ¬ sidtabMax ≤ s.count)
      (lookup : sidtabDoLookup s.tree s.count true allocs = some (some dst, tree, rest)) :
      CallOutcome j s target context allocs targetAllocs fault converted
        (.error .ENOMEM) ({ s with tree }.write dst entry) target
  | notConverted (dst : EntryRef) (tree : RadixTree SidtabEntry) (rest : List Bool)
      (entry : SidtabEntry) (e : Errno) (target' : Sidtab) (unknown : sidOf j s context = 0)
      (room : ¬ sidtabMax ≤ s.count)
      (lookup : sidtabDoLookup s.tree s.count true allocs = some (some dst, tree, rest))
      (live : s.converting = true)
      (new : NewConverted j target s.count converted targetAllocs (.error e) target') :
      CallOutcome j s target context allocs targetAllocs fault converted
        (.error e) ({ s with tree }.write dst entry) target'
  | created (dst : EntryRef) (tree : RadixTree SidtabEntry) (rest : List Bool)
      (linked target' : Sidtab) (unknown : sidOf j s context = 0) (thawed : s.frozen = false)
      (room : ¬ sidtabMax ≤ s.count)
      (lookup : sidtabDoLookup s.tree s.count true allocs = some (some dst, tree, rest))
      (new : if s.converting then NewConverted j target s.count converted targetAllocs (.ok ()) target'
        else target' = target)
      (link : (withEntry j s s.count tree dst context).hashAdd
        (j.hashMin (contextComputeHash j context)) dst = some linked) :
      CallOutcome j s target context allocs targetAllocs fault converted
        (.ok (indexToSid s.count)) linked target'

theorem sidtabContextToSid_cases {result : Except Errno U32}
    (done : sidtabContextToSid j s target context allocs targetAllocs fault converted =
      some (result, s', target')) :
    CallOutcome j s target context allocs targetAllocs fault converted result s' target' := by
  unfold sidtabContextToSid at done
  dsimp only at done
  split at done
  · rename_i known
    cases done
    exact .found known
  rename_i found
  have unknown : sidOf j s context = 0 := not_not.mp found
  split at done
  · cases done
    exact .frozen unknown
  rename_i warm
  have thawed : s.frozen = false := Bool.eq_false_iff.mpr warm
  split at done
  · cases done
    exact .full unknown
  rename_i room
  cases lookup : sidtabDoLookup s.tree s.count true allocs with
  | none =>
    rw [lookup] at done
    cases done
  | some out =>
    obtain ⟨dst, tree, rest⟩ := out
    rw [lookup] at done
    cases dst with
    | none =>
      cases done
      exact .noLeaf tree rest unknown lookup
    | some dst =>
      cases fault with
      | some partialCopy =>
        cases done
        exact .notCopied dst tree rest _ unknown room lookup
      | none =>
        dsimp only [contextCpy] at done
        generalize stored : Sidtab.write { s with tree } dst
          { sid := indexToSid s.count, hash := contextComputeHash j context, context } = w at done
        have converting : w.converting = s.converting := by rw [← stored, write_converting]
        by_cases live : s.converting = true
        · rw [if_pos (converting.trans live)] at done
          cases onTarget : sidtabConvertNew j target s.count converted targetAllocs with
          | none =>
            rw [onTarget] at done
            cases done
          | some out =>
            obtain ⟨outcome, t⟩ := out
            have new := sidtabConvertNew_cases onTarget
            rw [onTarget] at done
            cases outcome with
            | error e =>
              cases done
              rw [← stored, write_write]
              exact .notConverted dst tree rest _ e _ unknown room lookup live new
            | ok _ =>
              obtain ⟨linked, link, outcome⟩ := Option.map_eq_some_iff.mp done
              cases outcome
              cases stored
              refine .created dst tree rest _ _ unknown thawed room lookup ?_ link
              rw [if_pos live]
              exact new
        · rw [if_neg (converting ▸ live)] at done
          obtain ⟨linked, link, outcome⟩ := Option.map_eq_some_iff.mp done
          cases outcome
          cases stored
          refine .created dst tree rest _ _ unknown thawed room lookup ?_ link
          rw [if_neg live]

end Outcomes

/-- A call, with or without live conversion, has one of the three effects. -/
theorem sidtabContextToSid_effect {allocs targetAllocs : List Bool} {fault : Option Context}
    {converted : ConvertOutcome} {result : Except Errno U32} (ok : TableOk j s 0)
    (done : sidtabContextToSid j s target context allocs targetAllocs fault converted =
      some (result, s', target')) : CallEffect j s s' context result := by
  have written : ∀ (dst : EntryRef) (tree : RadixTree SidtabEntry) (rest : List Bool) (e : Errno)
      (entry : SidtabEntry), sidOf j s context = 0 → ¬ sidtabMax ≤ s.count →
      sidtabDoLookup s.tree s.count true allocs = some (some dst, tree, rest) →
      CallEffect j s ({ s with tree }.write dst entry) context (.error e) := by
    intro dst tree rest e entry unknown room lookup
    have below := count_below room
    exact .failed e unknown (written_unchanged ok below lookup entry).1 (by simp) (by simp)
      fun _ ok => (written_unchanged ok below lookup entry).2
  cases sidtabContextToSid_cases done with
  | found known => exact .found _ rfl known rfl
  | frozen unknown => exact .failed _ unknown (.refl j s) rfl rfl fun _ ok => ok
  | full unknown => exact .failed _ unknown (.refl j s) rfl rfl fun _ ok => ok
  | noLeaf tree rest unknown lookup =>
    exact .failed _ unknown (allocated_unchanged ok lookup).1 rfl rfl
      fun _ ok => (allocated_unchanged ok lookup).2
  | notCopied dst tree rest entry unknown room lookup =>
    exact written dst tree rest _ entry unknown room lookup
  | notConverted dst tree rest entry e target' unknown room lookup live new =>
    exact written dst tree rest e entry unknown room lookup
  | created dst tree rest linked target' unknown thawed room lookup new link =>
    have below := count_below room
    have fresh := append_fresh ok below lookup
    unfold withEntry at link
    rw [hashAdd_fresh (by simpa using fresh)] at link
    cases link
    have app := appended_spec ok below lookup context
    have shaped := appended_shaped ok lookup context (j := j)
    simp only [appended] at app shaped
    refine .created dst unknown thawed below ?_ ?_
    · simpa using shaped
    · simpa using app

/-- While the count is below the limit of the level loop, a call on a table that is not
being converted returns. -/
theorem sidtabContextToSid_returns (target : Sidtab) (context : Context)
    (allocs targetAllocs : List Bool) (fault : Option Context) (converted : ConvertOutcome)
    (ok : TableOk j s 0) (still : s.converting = false)
    (small : s.count.toNat < sidtabLevelLimit) :
    ∃ result s', sidtabContextToSid j s target context allocs targetAllocs fault converted =
      some (result, s', target) := by
  have below : s.count.toNat + 1 < 2 ^ 32 := by
    simp only [sidtabLevelLimit] at small
    omega
  obtain ⟨level, levelEq⟩ := sidtabLevelFromCount_found (s.count + 1)
    (by rw [toNat_succ below]; omega)
  obtain ⟨r, tree, rest, lookup⟩ : ∃ r tree rest,
      sidtabDoLookup s.tree s.count true allocs = some (r, tree, rest) := by
    obtain ⟨-, -, present, -⟩ := RadixTree.growRoots_spec zeroEntry ok.shaped level allocs
    simp only [sidtabDoLookup, levelEq, if_true, sidtabAllocRoots]
    cases grown : RadixTree.growRoots zeroEntry level s.tree allocs with
    | mk okGrown out =>
      obtain ⟨tree, rest⟩ := out
      rw [grown] at present
      cases okGrown with
      | false => exact ⟨_, _, _, rfl⟩
      | true =>
        obtain ⟨a, root⟩ := Option.ne_none_iff_exists'.mp (present rfl level (Nat.le_refl _))
        simp only at root
        simp only [root]
        exact ⟨_, _, _, rfl⟩
  simp only [sidtabContextToSid]
  split
  · exact ⟨_, _, rfl⟩
  · split
    · exact ⟨_, _, rfl⟩
    · split
      · exact ⟨_, _, rfl⟩
      · rw [lookup]
        cases r with
        | none => exact ⟨_, _, rfl⟩
        | some dst =>
          cases fault with
          | some partialCopy => exact ⟨_, _, rfl⟩
          | none =>
            have fresh := append_fresh ok below lookup
            simp only [contextCpy, write_converting, still, Bool.false_eq_true, if_false]
            rw [hashAdd_fresh (by simpa using fresh)]
            exact ⟨_, _, rfl⟩

end Ksrc.Guarantees.SidtabCalls

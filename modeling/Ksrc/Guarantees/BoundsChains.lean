import Ksrc.Library.Chains
import Ksrc.Library.UpToFirst
import Ksrc.Guarantees.PolicydbShape

/-!
# Following bounds through an array

Source: `security/selinux/ss/policydb.c` (`user_bounds_sanity_check`, `role_bounds_sanity_check`,
`type_bounds_sanity_check`).

The three checks are one loop over an array by value. Where the links it comes to lead to filled slots,
it accepts a datum just when its chain is short and every ancestor passes.
-/
namespace Ksrc.Guarantees.BoundsChains

open Library Source PolicydbShape

variable {δ : Type}

/-- What a slot of an array holds. -/
def slotOf (array : List (Option δ)) (value : U32) : Option δ := array[(value - 1).toNat]?.join

/-- The value that bounds a datum. -/
def boundOf (bounds : δ → U32) (d : δ) : Option U32 := if bounds d = 0 then none else some (bounds d)

/-- The value that bounds the datum of a value. -/
def nextBound (bounds : δ → U32) (array : List (Option δ)) (value : U32) : Option U32 :=
  (slotOf array value).bind (boundOf bounds)

/-- `value` is that of a proper ancestor of the datum. -/
def Above (bounds : δ → U32) (array : List (Option δ)) (d : δ) (value : U32) : Prop :=
  ∃ b, boundOf bounds d = some b ∧ (b = value ∨ Ahead (nextBound bounds array) b value)

/-- The chain of bounds of a datum has at most so many links. -/
def Short (bounds : δ → U32) (array : List (Option δ)) (links : Nat) (d : δ) : Prop :=
  ∀ b, boundOf bounds d = some b → 0 < links ∧ EndsWithin (nextBound bounds array) (links - 1) b

/-- The chain is short and every ancestor passes. -/
structure Nested (bounds : δ → U32) (array : List (Option δ)) (pass : δ → Prop) (links : Nat) (d : δ) :
    Prop where
  short : Short bounds array links d
  ancestors : ∀ value upper, Above bounds array d value → slotOf array value = some upper → pass upper

/-- The next link leads to a filled slot, and so do those above it while the ancestors pass. -/
def Linked (bounds : δ → U32) (array : List (Option δ)) (pass : δ → Prop) : Nat → δ → Prop
  | 0, _ => True
  | links + 1, d => ∀ b, boundOf bounds d = some b →
      ∃ upper, slotOf array b = some upper ∧ (pass upper → Linked bounds array pass links upper)

/-- The values at which the loop reads the array. -/
def boundsReads (bounds : δ → U32) (array : List (Option δ)) (check : δ → Except Fault Unit) :
    Nat → δ → List U32
  | left, upper =>
    if bounds upper = 0 then []
    else
      match left with
      | 0 => []
      | left + 1 => bounds upper ::
        match slotOf array (bounds upper) with
        | none => []
        | some upper =>
          match check upper with
          | .ok _ => boundsReads bounds array check left upper
          | .error _ => []

section Loop

variable {bounds : δ → U32} {array : List (Option δ)} {check : δ → Except Fault Unit}
  {pass : δ → Prop} {left : Nat} {d upper : δ} {b value : U32}

theorem boundOf_zero (zero : bounds d = 0) : boundOf bounds d = none := if_pos zero

theorem boundOf_some (nonzero : bounds d ≠ 0) : boundOf bounds d = some (bounds d) := if_neg nonzero

theorem nextBound_slot (slot : slotOf array b = some upper) :
    nextBound bounds array b = boundOf bounds upper := by
  unfold nextBound
  rw [slot]
  rfl

/-- What the loop does with a filled slot. -/
theorem readSlot_ok (slot : slotOf array value = some upper) :
    (do let entry ← atValue array value
        derefPtr entry) = (.ok upper : Except Fault δ) := by
  unfold slotOf at slot
  unfold atValue
  cases found : array[(value - 1).toNat]? with
  | none =>
    rw [found] at slot
    cases slot
  | some entry =>
    rw [found] at slot
    cases entry with
    | none => cases slot
    | some datum =>
      cases slot
      rfl

theorem slotOf_readSlot {entry : Option δ} (read : atValue array value = .ok entry)
    (pointer : derefPtr entry = .ok upper) : slotOf array value = some upper := by
  unfold atValue at read
  unfold slotOf
  cases found : array[(value - 1).toNat]? with
  | none =>
    rw [found] at read
    cases read
  | some slot =>
    rw [found] at read
    cases read
    cases entry with
    | none => cases pointer
    | some datum =>
      cases pointer
      rfl

theorem boundsLoop_zero (unbounded : bounds d = 0) : boundsLoop bounds array check left d = .ok () := by
  unfold boundsLoop
  rw [if_pos unbounded]

theorem boundsLoop_deep (bounded : bounds d ≠ 0) :
    boundsLoop bounds array check 0 d = .error einval := by
  unfold boundsLoop
  rw [if_neg bounded]

/-- One round of the loop at a filled slot. -/
theorem boundsLoop_succ (bounded : bounds d ≠ 0) (slot : slotOf array (bounds d) = some upper) :
    boundsLoop bounds array check (left + 1) d = .ok () ↔
      check upper = .ok () ∧ boundsLoop bounds array check left upper = .ok () := by
  conv_lhs => unfold boundsLoop
  rw [if_neg bounded]
  simp only [exceptBind_ok]
  constructor
  · rintro ⟨entry, read, upper', pointer, u, passed, later⟩
    rw [slotOf_readSlot read pointer] at slot
    cases slot
    exact ⟨passed, later⟩
  · rintro ⟨passed, later⟩
    obtain ⟨entry, read, pointer⟩ := exceptBind_ok.mp (readSlot_ok slot)
    exact ⟨entry, read, upper, pointer, (), passed, later⟩

theorem short_succ (bound : boundOf bounds d = some b) (slot : slotOf array b = some upper) :
    Short bounds array (left + 1) d ↔ Short bounds array left upper := by
  unfold Short
  rw [bound]
  constructor
  · intro short b' link
    obtain ⟨-, ends⟩ := short b rfl
    rw [Nat.add_sub_cancel] at ends
    cases left with
    | zero =>
      have none : nextBound bounds array b = none := ends
      rw [nextBound_slot slot, link] at none
      cases none
    | succ n => exact ⟨Nat.succ_pos n, ends.tail (by rw [nextBound_slot slot, link])⟩
  · intro short b' same
    cases same
    refine ⟨Nat.succ_pos left, ?_⟩
    rw [Nat.add_sub_cancel]
    cases left with
    | zero =>
      show nextBound bounds array b = none
      rw [nextBound_slot slot]
      cases link : boundOf bounds upper with
      | none => rfl
      | some b' => exact absurd (short b' link).1 (Nat.lt_irrefl 0)
    | succ n =>
      intro b' link
      rw [nextBound_slot slot] at link
      exact (short b' link).2

theorem above_succ (bound : boundOf bounds d = some b) (slot : slotOf array b = some upper) :
    Above bounds array d value ↔ b = value ∨ Above bounds array upper value := by
  unfold Above
  rw [bound]
  have up : Ahead (nextBound bounds array) b value ↔ Above bounds array upper value := by
    unfold Above
    rw [← nextBound_slot slot]
    cases link : nextBound bounds array b with
    | none =>
      refine iff_of_false (not_ahead_of_none link) ?_
      rintro ⟨b', some, -⟩
      cases some
    | some b' =>
      rw [ahead_of_some link]
      constructor
      · exact fun ahead => ⟨b', rfl, ahead⟩
      · rintro ⟨c, some, ahead⟩
        cases some
        exact ahead
  constructor
  · rintro ⟨b', some, ahead⟩
    cases some
    exact ahead.imp_right up.mp
  · exact fun ahead => ⟨b, rfl, ahead.imp_right up.mpr⟩

theorem nested_succ (bound : boundOf bounds d = some b) (slot : slotOf array b = some upper) :
    Nested bounds array pass (left + 1) d ↔ pass upper ∧ Nested bounds array pass left upper := by
  constructor
  · rintro ⟨short, ancestors⟩
    refine ⟨ancestors b upper ((above_succ bound slot).mpr (.inl rfl)) slot,
      (short_succ bound slot).mp short, fun value top above here => ?_⟩
    exact ancestors value top ((above_succ bound slot).mpr (.inr above)) here
  · rintro ⟨passes, short, ancestors⟩
    refine ⟨(short_succ bound slot).mpr short, fun value top above here => ?_⟩
    rcases (above_succ bound slot).mp above with rfl | higher
    · rw [slot] at here
      cases here
      exact passes
    · exact ancestors value top higher here

theorem nested_zero (unbounded : bounds d = 0) : Nested bounds array pass left d := by
  constructor
  · intro b bound
    rw [boundOf_zero unbounded] at bound
    cases bound
  · rintro value upper ⟨b, bound, -⟩ -
    rw [boundOf_zero unbounded] at bound
    cases bound

/-- Where its links lead to filled slots, the loop accepts what is nested. -/
theorem boundsLoop_iff
    (checks : ∀ value upper, slotOf array value = some upper → (check upper = .ok () ↔ pass upper))
    (linked : Linked bounds array pass left d) :
    boundsLoop bounds array check left d = .ok () ↔ Nested bounds array pass left d := by
  induction left generalizing d with
  | zero =>
    by_cases unbounded : bounds d = 0
    · exact iff_of_true (boundsLoop_zero unbounded) (nested_zero unbounded)
    · rw [boundsLoop_deep unbounded]
      refine iff_of_false (fun ok => ?_) fun nested => ?_
      · cases ok
      · exact absurd (nested.short _ (boundOf_some unbounded)).1 (Nat.lt_irrefl 0)
  | succ left ih =>
    by_cases unbounded : bounds d = 0
    · exact iff_of_true (boundsLoop_zero unbounded) (nested_zero unbounded)
    · obtain ⟨upper, slot, higher⟩ := linked _ (boundOf_some unbounded)
      rw [boundsLoop_succ unbounded slot, nested_succ (boundOf_some unbounded) slot, checks _ _ slot]
      exact and_congr_right fun passes => ih (higher passes)

/-- The loop reads filled slots only, just when its links lead to them. -/
theorem boundsReads_iff
    (checks : ∀ value upper, slotOf array value = some upper → (check upper = .ok () ↔ pass upper)) :
    (∀ value ∈ boundsReads bounds array check left d, ∃ upper, slotOf array value = some upper) ↔
      Linked bounds array pass left d := by
  induction left generalizing d with
  | zero =>
    unfold boundsReads
    refine iff_of_true (fun value member => ?_) trivial
    split at member
    · cases member
    · cases member
  | succ left ih =>
    unfold boundsReads
    by_cases unbounded : bounds d = 0
    · rw [if_pos unbounded]
      refine iff_of_true (fun value member => ?_) fun b bound => ?_
      · cases member
      · rw [boundOf_zero unbounded] at bound
        cases bound
    · rw [if_neg unbounded]
      have bound := boundOf_some unbounded
      dsimp only
      rw [List.forall_mem_cons]
      unfold Linked
      rw [bound]
      constructor
      · rintro ⟨⟨upper, slot⟩, others⟩ b same
        cases same
        refine ⟨upper, slot, fun passes => ?_⟩
        rw [slot] at others
        dsimp only at others
        rw [(checks _ _ slot).mpr passes] at others
        exact ih.mp others
      · intro linked
        obtain ⟨upper, slot, higher⟩ := linked _ rfl
        refine ⟨⟨upper, slot⟩, ?_⟩
        rw [slot]
        dsimp only
        cases answer : check upper with
        | error e =>
          intro value member
          cases member
        | ok u => exact ih.mpr (higher ((checks _ _ slot).mp answer))

end Loop

section Tables

variable {σ : Type} {check : δ → Except Fault Unit} {reads : δ → List U32} {nested linked : δ → Prop}
  {filled : U32 → Prop} {entries : List (Name × δ)}

/-- The values that are read for the entries of a table, up to the entry that ends the map. -/
def readsUntil (check : δ → Except Fault Unit) (reads : δ → List U32) : List (Name × δ) → List U32
  | [] => []
  | e :: rest => reads e.2 ++
    match check e.2 with
    | .ok _ => readsUntil check reads rest
    | .error _ => []

theorem hashtabMap_unit : hashtabMap (fun _ d _ => check d) entries () = .ok () ↔
    ∀ e ∈ entries, check e.2 = .ok () := by
  induction entries with
  | nil => exact iff_of_true rfl (by simp)
  | cons e rest ih =>
    unfold hashtabMap
    rw [List.forall_mem_cons]
    cases answer : check e.2 with
    | error f =>
      refine iff_of_false (fun ok => ?_) fun ok => ?_
      · cases ok
      · cases ok.1
    | ok u => exact ih.trans (and_iff_right rfl).symm

/-- The reads are at filled slots, just when the links of the entries the map comes to are. -/
theorem readsUntil_iff
    (each : ∀ e ∈ entries, ((∀ value ∈ reads e.2, filled value) ↔ linked e.2))
    (accepts : ∀ e ∈ entries, linked e.2 → (check e.2 = .ok () ↔ nested e.2)) :
    (∀ value ∈ readsUntil check reads entries, filled value) ↔
      UpToFirst (fun e => nested e.2) (fun e => linked e.2) entries := by
  induction entries with
  | nil => exact iff_of_true (fun value member => absurd member List.not_mem_nil) upToFirst_nil
  | cons e rest ih =>
    rw [List.forall_mem_cons] at each accepts
    unfold readsUntil
    rw [upToFirst_cons, List.forall_mem_append, each.1]
    refine and_congr_right fun here => ?_
    rw [← accepts.1 here]
    cases answer : check e.2 with
    | error f =>
      refine iff_of_true (fun value member => absurd member List.not_mem_nil) fun ok => ?_
      cases ok
    | ok u => exact (ih each.2 accepts.2).trans ⟨fun all _ => all, fun all => all rfl⟩

/-- Where the links are filled, the map accepts when every entry is nested. -/
theorem all_accepted_iff
    (accepts : ∀ e ∈ entries, linked e.2 → (check e.2 = .ok () ↔ nested e.2))
    (reached : UpToFirst (fun e : Name × δ => nested e.2) (fun e => linked e.2) entries) :
    (∀ e ∈ entries, check e.2 = .ok ()) ↔ ∀ e ∈ entries, nested e.2 := by
  induction entries with
  | nil => exact iff_of_true (by simp) (by simp)
  | cons e rest ih =>
    obtain ⟨here, later⟩ := upToFirst_cons.mp reached
    rw [List.forall_mem_cons] at accepts
    rw [List.forall_mem_cons, List.forall_mem_cons, accepts.1 here]
    exact and_congr_right fun passes => ih accepts.2 (later passes)

end Tables

end Ksrc.Guarantees.BoundsChains

import Ksrc.Guarantees.XpermDecisions

/-!
# What the rules add to an access vector

Source: `security/selinux/ss/services.c` (the loops of `context_struct_compute_av`,
`services_compute_xperms_drivers`), `conditional.c` (`cond_compute_av`).

The loops come to every rule of a pair of attributes, in the order of two hash tables. What they
leave does not depend on the order: each bit of the vectors, the driver map and its length is set by
some rule or by none.
-/
namespace Ksrc.Guarantees.AvRules

open Library Source AvcNodeContent AvtabEnumeration
  PolicydbShape XpermDecisions

/-- A decision and a driver map in the making. -/
abbrev Acc := AvDecision × Option ExtendedPerms

/-- The specifiers the loops search for. -/
def avSpecified : U16 := avtabAv ||| avtabXperms

/-- A rule of the table for a pair of attributes of the two types. -/
def RuleFor (table : Avtab) (sattr tattr : Ebitmap) (tclass : U16) (n : AvtabNode) : Prop :=
  n ∈ table.nodes ∧ ∃ i ∈ ebitmapPositiveBits sattr, ∃ j ∈ ebitmapPositiveBits tattr,
    avtabMatch (attrKey i j tclass avSpecified) avSpecified n.key = true

section Loops

variable {p : Policydb} {tclass : U16} {inv seen : Acc → Prop} {te cond : AvtabNode → Prop} {acc : Acc}

theorem pair_accumulates (teStep : Accumulates inv seen te computeAvNode)
    (condStep : Accumulates inv seen cond condComputeNode) (i : U32) :
    Accumulates inv seen
      (fun j => (∃ n ∈ avtabMatches p.teAvtab (attrKey i j tclass avSpecified), te n) ∨
        ∃ n ∈ avtabMatches p.teCondAvtab (attrKey i j tclass avSpecified), cond n)
      (fun acc j => computeAvPair p tclass i j acc) := by
  have unconditional : Accumulates inv seen
      (fun j => ∃ n ∈ avtabMatches p.teAvtab (attrKey i j tclass avSpecified), te n)
      (fun acc j => (avtabMatches p.teAvtab (attrKey i j tclass avSpecified)).foldl computeAvNode acc) :=
    Accumulates.nest (fun _ => teStep) fun _ _ => rfl
  have conditional : Accumulates inv seen
      (fun j => ∃ n ∈ avtabMatches p.teCondAvtab (attrKey i j tclass avSpecified), cond n)
      (fun acc j => condComputeAv p.teCondAvtab (attrKey i j tclass avSpecified) acc) :=
    Accumulates.nest (fun _ => condStep) fun _ _ => rfl
  exact Accumulates.seq unconditional conditional fun _ _ => rfl

/-- The loops see what some rule of either table adds. -/
theorem computeAvRules_seen (teOk : AvtabOk p.teAvtab) (condOk : AvtabOk p.teCondAvtab)
    (teStep : Accumulates inv seen te computeAvNode)
    (condStep : Accumulates inv seen cond condComputeNode) (sattr tattr : Ebitmap) (start : inv acc) :
    inv (computeAvRules p tclass sattr tattr acc) ∧
      (seen (computeAvRules p tclass sattr tattr acc) ↔ seen acc ∨
        (∃ n, RuleFor p.teAvtab sattr tattr tclass n ∧ te n) ∨
          ∃ n, RuleFor p.teCondAvtab sattr tattr tclass n ∧ cond n) := by
  have rows : Accumulates inv seen _
      (fun acc i => (ebitmapPositiveBits tattr).foldl
        (fun acc j => computeAvPair p tclass i j acc) acc) :=
    Accumulates.nest (pair_accumulates teStep condStep) fun _ _ => rfl
  refine ⟨rows.foldl_keeps _ start, (rows.foldl_grows _ start).trans (or_congr_right ?_)⟩
  have whole : avtabSpecified avSpecified = avSpecified := by decide
  simp only [mem_avtabMatches teOk, mem_avtabMatches condOk, RuleFor, attrKey, whole]
  constructor
  · rintro ⟨i, source, j, target, ⟨n, ⟨listed, matched⟩, adds⟩ | ⟨n, ⟨listed, matched⟩, adds⟩⟩
    · exact .inl ⟨n, ⟨listed, i, source, j, target, matched⟩, adds⟩
    · exact .inr ⟨n, ⟨listed, i, source, j, target, matched⟩, adds⟩
  · rintro (⟨n, ⟨listed, i, source, j, target, matched⟩, adds⟩ |
      ⟨n, ⟨listed, i, source, j, target, matched⟩, adds⟩)
    · exact ⟨i, source, j, target, .inl ⟨n, ⟨listed, matched⟩, adds⟩⟩
    · exact ⟨i, source, j, target, .inr ⟨n, ⟨listed, matched⟩, adds⟩⟩

end Loops

section Vectors

/-- A bit that a rule may set in a vector; of `auditdeny` it is a bit that is cleared. -/
inductive AvBit where
  | allowed (k : Nat) | auditallow (k : Nat) | quiet (k : Nat)

namespace AvBit

def seen : AvBit → Acc → Prop
  | allowed k, acc => acc.1.allowed.getLsbD k = true
  | auditallow k, acc => acc.1.auditallow.getLsbD k = true
  | quiet k, acc => acc.1.auditdeny.getLsbD k = false

/-- The specifier of its rules. -/
def code : AvBit → U16
  | allowed _ => avtabAllowed
  | auditallow _ => avtabAuditallow
  | quiet _ => avtabAuditdeny

theorem code_cases (bit : AvBit) : bit.code = avtabAllowed ∨ bit.code = avtabAuditallow ∨
    bit.code = avtabAuditdeny := by
  cases bit with
  | allowed k => exact .inl rfl
  | auditallow k => exact .inr (.inl rfl)
  | quiet k => exact .inr (.inr rfl)

/-- Whether the data of a rule sets it. -/
def sets : AvBit → U32 → Prop
  | allowed k, u => u.getLsbD k = true
  | auditallow k, u => u.getLsbD k = true
  | quiet k, u => u.getLsbD k = false

end AvBit

/-- What no rule changes of a decision. -/
def Stamped (seqno flags : U32) (acc : Acc) : Prop := acc.1.seqno = seqno ∧ acc.1.flags = flags

variable {seqno flags : U32}

theorem teBit (bit : AvBit) : Accumulates (Stamped seqno flags) bit.seen
    (fun n => n.key.specified = bit.code ∧ bit.sets n.datum.u) computeAvNode := by
  have apart : avtabAllowed ≠ avtabAuditallow ∧ avtabAllowed ≠ avtabAuditdeny ∧
    avtabAuditallow ≠ avtabAuditdeny := by decide
  obtain ⟨apart₁, apart₂, apart₃⟩ := apart
  constructor
  · rintro ⟨avd, xperms⟩ n stamped
    unfold computeAvNode
    dsimp only
    split
    · exact stamped
    · split
      · exact stamped
      · split
        · exact stamped
        · split
          · exact stamped
          · exact stamped
  · rintro ⟨avd, xperms⟩ n -
    unfold computeAvNode
    dsimp only
    split
    · rename_i specified
      cases bit <;> simp [AvBit.seen, AvBit.code, AvBit.sets, specified, apart₁, apart₂]
    · rename_i notAllowed
      split
      · rename_i specified
        cases bit <;> simp [AvBit.seen, AvBit.code, AvBit.sets, specified, apart₁.symm, apart₃]
      · rename_i notAuditallow
        split
        · rename_i specified
          cases bit with
          | allowed k => simp [AvBit.seen, AvBit.code, specified, apart₂.symm]
          | auditallow k => simp [AvBit.seen, AvBit.code, specified, apart₃.symm]
          | quiet k =>
            simp only [AvBit.seen, AvBit.code, AvBit.sets, specified, BitVec.getLsbD_and,
              Bool.and_eq_false_iff, true_and]
        · rename_i notAuditdeny
          have same : ∀ xperms', bit.seen (avd, xperms') ↔ bit.seen (avd, xperms) ∨
              n.key.specified = bit.code ∧ bit.sets n.datum.u := by
            intro xperms'
            cases bit <;> simp [AvBit.seen, AvBit.code, notAllowed, notAuditallow, notAuditdeny]
          split
          · exact same _
          · exact same _

/-- A conditional rule of the specifier that is enabled. -/
def Both (n : AvtabNode) (flag : U16) : Prop :=
  n.key.specified &&& (flag ||| avtabEnabled) = flag ||| avtabEnabled

instance instDecidableBoth (n : AvtabNode) (flag : U16) : Decidable (Both n flag) :=
  inferInstanceAs (Decidable (_ = _))

/-- The vectors after a node of `te_cond_avtab`. -/
theorem condComputeNode_fst (acc : Acc) (n : AvtabNode) :
    (condComputeNode acc n).1 =
      { acc.1 with
        allowed := if Both n avtabAllowed then acc.1.allowed ||| n.datum.u else acc.1.allowed
        auditdeny := if Both n avtabAuditdeny then acc.1.auditdeny &&& n.datum.u
          else acc.1.auditdeny
        auditallow := if Both n avtabAuditallow then acc.1.auditallow ||| n.datum.u
          else acc.1.auditallow } := by
  have test : ∀ flag, (n.key.specified &&& (flag ||| avtabEnabled) == flag ||| avtabEnabled) =
      decide (Both n flag) := fun _ => rfl
  simp only [condComputeNode, test, decide_eq_true_eq]
  by_cases allowed : Both n avtabAllowed <;> by_cases auditdeny : Both n avtabAuditdeny <;>
    by_cases auditallow : Both n avtabAuditallow <;> simp [allowed, auditdeny, auditallow]

theorem condBit (bit : AvBit) : Accumulates (Stamped seqno flags) bit.seen
    (fun n => Both n bit.code ∧ bit.sets n.datum.u) condComputeNode := by
  constructor
  · intro acc n stamped
    unfold Stamped
    rw [condComputeNode_fst]
    exact stamped
  · intro acc n _
    cases bit with
    | allowed k =>
      simp only [AvBit.seen, AvBit.code, AvBit.sets, condComputeNode_fst]
      by_cases both : Both n avtabAllowed
      · simp [both]
      · simp [both]
    | auditallow k =>
      simp only [AvBit.seen, AvBit.code, AvBit.sets, condComputeNode_fst]
      by_cases both : Both n avtabAuditallow
      · simp [both]
      · simp [both]
    | quiet k =>
      simp only [AvBit.seen, AvBit.code, AvBit.sets, condComputeNode_fst]
      by_cases both : Both n avtabAuditdeny
      · rw [if_pos both, BitVec.getLsbD_and, Bool.and_eq_false_iff, and_iff_right both]
      · simp [both]

/-- The loops leave the stamp of a decision. -/
theorem computeAvRules_stamp {p : Policydb} {tclass : U16} {acc : Acc} (teOk : AvtabOk p.teAvtab)
    (condOk : AvtabOk p.teCondAvtab) (sattr tattr : Ebitmap) :
    Stamped acc.1.seqno acc.1.flags (computeAvRules p tclass sattr tattr acc) :=
  (computeAvRules_seen teOk condOk (teBit (.allowed 0)) (condBit (.allowed 0)) sattr tattr
    ⟨rfl, rfl⟩).1

end Vectors

section Drivers

variable {driver : U8}

/-- The driver map is computed. -/
def Wanted (acc : Acc) : Prop := ∃ x, acc.2 = some x

/-- An extended rule was met. -/
def Extended (acc : Acc) : Prop := ∃ x, acc.2 = some x ∧ x.len ≠ 0

/-- The driver is in the map. -/
def Driven (driver : U8) (acc : Acc) : Prop :=
  ∃ x, acc.2 = some x ∧ securityXpermTest x.drivers driver = true

/-- The data of an extended rule. -/
def IsXperms (datum : AvtabDatum) : Prop := ∃ x, datum = .xperms x

/-- Data that say something about the driver. -/
def Drives (driver : U8) (datum : AvtabDatum) : Prop :=
  ∃ x, datum = .xperms x ∧ xpermsApplies x driver = true

/-- A rule that is enabled and has the specifier of an extended one. -/
def EnabledXperms (n : AvtabNode) : Prop :=
  n.key.specified &&& avtabEnabled ≠ 0 ∧ n.key.specified &&& avtabXperms ≠ 0

instance instDecidableEnabledXperms (n : AvtabNode) : Decidable (EnabledXperms n) :=
  inferInstanceAs (Decidable (_ ∧ _))

theorem test_set (map : ExtendedPermsData) (x perm : U8) :
    securityXpermTest (securityXpermSet map x) perm = (x == perm || securityXpermTest map perm) := by
  have low : ∀ y : U8, (y &&& 0x1f).toNat = y.toNat % 32 := by
    intro y
    rw [BitVec.toNat_and]
    exact Nat.and_two_pow_sub_one_eq_mod y.toNat 5
  have high : ∀ y : U8, (y >>> 5).toNat = y.toNat / 32 := by
    intro y
    rw [BitVec.toNat_ushiftRight, Nat.shiftRight_eq_div_pow]
  have same : x = perm ↔ (x >>> 5).toNat = (perm >>> 5).toNat ∧
      (x &&& 0x1f).toNat = (perm &&& 0x1f).toNat := by
    rw [low, low, high, high, ← BitVec.toNat_inj]
    omega
  have small : (perm &&& 0x1f).toNat < 32 := by
    rw [low]
    omega
  have word : ∀ k : Fin 8, (securityXpermSet map x).p.get k =
      if (x >>> 5).toNat = k.val then map.p.get k ||| (1#32 <<< (x &&& 0x1f).toNat)
      else map.p.get k := by
    intro k
    have inside := shiftRight_five_lt x
    show (map.p.set (x >>> 5).toNat (map.p[(x >>> 5).toNat] ||| (1#32 <<< (x &&& 0x1f).toNat))
      inside)[k.val] = _
    rw [Vector.getElem_set]
    split
    · rename_i here
      simp only [here]
      rfl
    · rfl
  rw [securityXpermTest_eq, securityXpermTest_eq, word]
  dsimp only
  by_cases here : (x >>> 5).toNat = (perm >>> 5).toNat
  · rw [if_pos here, BitVec.getLsbD_or, Bool.or_comm]
    congr 1
    rw [Bool.eq_iff_iff, beq_iff_eq, same, and_iff_right here, BitVec.getLsbD_shiftLeft,
      BitVec.getLsbD_one]
    simp only [small, decide_true, Bool.true_and, Bool.and_eq_true, Bool.not_eq_true',
      decide_eq_false_iff_not, decide_eq_true_eq]
    omega
  · rw [if_neg here]
    have differs : (x == perm) = false := by
      rw [beq_eq_false_iff_ne, ne_eq, same]
      exact fun both => here both.1
    rw [differs, Bool.false_or]

/-- The driver map after a node of `te_avtab`. -/
theorem computeAvNode_snd (acc : Acc) (n : AvtabNode) :
    (computeAvNode acc n).2 = if n.key.specified &&& avtabXperms ≠ 0 then
      acc.2.map (servicesComputeXpermsDrivers · n) else acc.2 := by
  have plain : avtabAllowed &&& avtabXperms = 0 ∧ avtabAuditallow &&& avtabXperms = 0 ∧
    avtabAuditdeny &&& avtabXperms = 0 := by decide
  obtain ⟨acc₁, acc₂⟩ := acc
  unfold computeAvNode
  dsimp only
  split
  · rename_i specified
    rw [specified, if_neg (not_not.mpr plain.1)]
  · split
    · rename_i specified
      rw [specified, if_neg (not_not.mpr plain.2.1)]
    · split
      · rename_i specified
        rw [specified, if_neg (not_not.mpr plain.2.2)]
      · split
        · rfl
        · rfl

/-- The driver map after a node of `te_cond_avtab`. -/
theorem condComputeNode_snd (acc : Acc) (n : AvtabNode) :
    (condComputeNode acc n).2 = if EnabledXperms n then
      acc.2.map (servicesComputeXpermsDrivers · n) else acc.2 :=
  rfl

theorem drivers_extended {acc acc' : Acc} {n : AvtabNode} (wanted : Wanted acc)
    (same : acc'.2 = acc.2.map (servicesComputeXpermsDrivers · n)) :
    Extended acc' ↔ Extended acc ∨ IsXperms n.datum := by
  obtain ⟨x, here⟩ := wanted
  unfold Extended IsXperms
  rw [same, here]
  unfold servicesComputeXpermsDrivers
  cases n.datum with
  | data u => simp
  | xperms y => simp

theorem drivers_driven {acc acc' : Acc} {n : AvtabNode} (wanted : Wanted acc)
    (same : acc'.2 = acc.2.map (servicesComputeXpermsDrivers · n)) :
    Driven driver acc' ↔ Driven driver acc ∨ Drives driver n.datum := by
  have apart : avtabXpermsIoctlfunction ≠ avtabXpermsIoctldriver := by decide
  obtain ⟨x, here⟩ := wanted
  unfold Driven Drives
  rw [same, here]
  unfold servicesComputeXpermsDrivers
  cases n.datum with
  | data u => simp
  | xperms y =>
    unfold xpermsApplies
    by_cases whole : y.specified = avtabXpermsIoctldriver
    · simp [whole, apart.symm, test_or]
    · by_cases function : y.specified = avtabXpermsIoctlfunction
      · simp only [function, apart, if_false, if_true, Option.map_some, Option.some.injEq,
          exists_eq_left', test_set, Bool.or_eq_true, beq_iff_eq, AvtabDatum.xperms.injEq]
        rw [or_comm]
        exact or_congr_right eq_comm
      · simp [whole, function]

theorem wanted_map {acc acc' : Acc} {n : AvtabNode} (wanted : Wanted acc)
    (same : acc'.2 = acc.2.map (servicesComputeXpermsDrivers · n)) : Wanted acc' := by
  obtain ⟨x, here⟩ := wanted
  unfold Wanted
  rw [same, here]
  exact ⟨_, rfl⟩

/-- What the map of an extended rule adds, a step of either loop adds. -/
theorem snd_accumulates {seen : Acc → Prop} {adds : AvtabDatum → Prop}
    {test : AvtabNode → Prop} [DecidablePred test] {f : Acc → AvtabNode → Acc}
    (snd : ∀ acc n, (f acc n).2 = if test n then acc.2.map (servicesComputeXpermsDrivers · n)
      else acc.2)
    (reads : ∀ acc acc' : Acc, acc'.2 = acc.2 → (seen acc' ↔ seen acc))
    (grows : ∀ (acc acc' : Acc) (n : AvtabNode), Wanted acc →
      acc'.2 = acc.2.map (servicesComputeXpermsDrivers · n) →
        (seen acc' ↔ seen acc ∨ adds n.datum)) :
    Accumulates Wanted seen (fun n => test n ∧ adds n.datum) f := by
  constructor
  · intro acc n wanted
    have after := snd acc n
    split at after
    · exact wanted_map wanted after
    · unfold Wanted
      rw [after]
      exact wanted
  · intro acc n wanted
    have after := snd acc n
    split at after
    · rename_i meets
      rw [grows acc _ n wanted after, and_iff_right meets]
    · rename_i fails
      rw [reads acc _ after]
      constructor
      · exact .inl
      · rintro (old | ⟨meets, -⟩)
        · exact old
        · exact absurd meets fails

theorem extended_reads (acc acc' : Acc) (same : acc'.2 = acc.2) : Extended acc' ↔ Extended acc := by
  unfold Extended
  rw [same]

theorem driven_reads (acc acc' : Acc) (same : acc'.2 = acc.2) :
    Driven driver acc' ↔ Driven driver acc := by
  unfold Driven
  rw [same]

theorem teExtended : Accumulates Wanted Extended
    (fun n => n.key.specified &&& avtabXperms ≠ 0 ∧ IsXperms n.datum) computeAvNode :=
  snd_accumulates computeAvNode_snd extended_reads fun _ _ _ wanted => drivers_extended wanted

theorem condExtended : Accumulates Wanted Extended
    (fun n => EnabledXperms n ∧ IsXperms n.datum) condComputeNode :=
  snd_accumulates condComputeNode_snd extended_reads fun _ _ _ wanted => drivers_extended wanted

theorem teDriven : Accumulates Wanted (Driven driver)
    (fun n => n.key.specified &&& avtabXperms ≠ 0 ∧ Drives driver n.datum) computeAvNode :=
  snd_accumulates computeAvNode_snd driven_reads fun _ _ _ wanted => drivers_driven wanted

theorem condDriven : Accumulates Wanted (Driven driver)
    (fun n => EnabledXperms n ∧ Drives driver n.datum) condComputeNode :=
  snd_accumulates condComputeNode_snd driven_reads fun _ _ _ wanted => drivers_driven wanted

end Drivers

end Ksrc.Guarantees.AvRules

import Ksrc.Guarantees.AvRuleSets
import Ksrc.Guarantees.AvtabCalls
import Ksrc.Guarantees.PolicyCodecs
import Ksrc.Guarantees.PolicyImages

/-!
# Access vector tables that are written and read again

Source: `security/selinux/ss/avtab.c` (`avtab_write`, `avtab_write_item`, `avtab_read`,
`avtab_read_item`, `avtab_insert`).

The rules are written in the order of the chains and inserted one after the other. An extended rule
goes in front of those it shares a specifier with, so their order may turn round; a plain rule behind
an extended one it shares a specifier with is refused.
-/
namespace Ksrc.Guarantees.RuleFiles

open Library Source AvtabCalls AvtabEnumeration
open AvRuleSets PolicyCodecs PolicyImages
open RuleLog

variable {p : Policydb} {r : Rule} {bytes rest : List U8}

/-- A rule that passes the checks of `avtab_read_item`, with the datum of its kind. -/
structure RuleStored (p : Policydb) (r : Rule) : Prop where
  valid : policydbTypeIsvalid p (r.1.sourceType.zeroExtend 32) ∧
    policydbTypeIsvalid p (r.1.targetType.zeroExtend 32) ∧
      policydbClassIsvalid p (r.1.targetClass.zeroExtend 32)
  single : specCount r.1.specified = 1
  version : ¬ (p.policyvers < policydbVersionXpermsIoctl ∧ r.1.specified &&& avtabXperms ≠ 0)
  extended : r.1.specified &&& avtabXperms ≠ 0 → ∃ x, r.2 = .xperms x
  plain : r.1.specified &&& avtabXperms = 0 → ∃ data, r.2 = .data data
  typed : r.1.specified &&& avtabType ≠ 0 → policydbTypeIsvalid p r.2.u

section Items

/-- The part of `avtab_read_item` before its insertion, of the newer format. -/
def readRule (p : Policydb) : PolicyReader Rule := do
  let sourceType ← nextU16
  let targetType ← nextU16
  let targetClass ← nextU16
  let specified ← nextU16
  ByteReader.require einval (policydbTypeIsvalid p (sourceType.zeroExtend 32) ∧
    policydbTypeIsvalid p (targetType.zeroExtend 32) ∧
    policydbClassIsvalid p (targetClass.zeroExtend 32))
  ByteReader.require einval (specCount specified = 1)
  ByteReader.require einval (¬ (p.policyvers < policydbVersionXpermsIoctl ∧
    specified &&& avtabXperms ≠ 0))
  let datum ← avtabReadDatum specified
  ByteReader.require einval (specified &&& avtabType ≠ 0 → policydbTypeIsvalid p datum.u)
  pure ({ sourceType, targetType, targetClass, specified }, datum)

theorem avtabReadItem_rule {σ : Type} (newer : policydbVersionAvtab ≤ p.policyvers)
    (insertf : AvtabKey → AvtabDatum → σ → Except Fault σ) (st : σ) :
    avtabReadItem p insertf st = readRule p >>= fun r => ByteReader.lift (insertf r.1 r.2 st) := by
  have notOlder : ¬ p.policyvers < policydbVersionAvtab := by
    rw [BitVec.not_lt]
    exact newer
  unfold avtabReadItem readRule
  rw [if_neg notOlder]
  simp only [ByteReader.bind_assoc, pure_bind]

theorem readRule_stored (read : readRule p bytes = .ok (r, rest)) : RuleStored p r := by
  simp only [readRule, ByteReader.bind_ok, ByteReader.require_ok, ByteReader.pure_ok] at read
  obtain ⟨sourceType, _, -, targetType, _, -, targetClass, _, -, specified, _, -, _, _, ⟨valid, -⟩, _, _,
    ⟨single, -⟩, _, _, ⟨version, -⟩, datum, _, readDatum, _, _, ⟨typed, -⟩, rfl, -⟩ := read
  refine ⟨valid, single, version, fun extended => ?_, fun plain => ?_, typed⟩
  · unfold avtabReadDatum at readDatum
    rw [if_pos extended] at readDatum
    simp only [ByteReader.bind_ok, ByteReader.pure_ok] at readDatum
    obtain ⟨_, _, -, _, _, -, _, _, -, _, _, -, _, _, -, _, _, -, _, _, -, _, _, -, _, _, -, _, _, -, rfl, -⟩ :=
      readDatum
    exact ⟨_, rfl⟩
  · unfold avtabReadDatum at readDatum
    rw [if_neg (not_not_intro plain)] at readDatum
    simp only [ByteReader.bind_ok, ByteReader.pure_ok] at readDatum
    obtain ⟨data, _, -, rfl, -⟩ := readDatum
    exact ⟨data, rfl⟩

theorem xperms_carry (x : AvtabExtendedPerms) {specified : U16} (extended : specified &&& avtabXperms ≠ 0) :
    Carries einval (ByteWriter.seq [putEntry [x.specified], putEntry [x.driver], putPerms x.perms])
      (avtabReadDatum specified) (.xperms x) := by
  obtain ⟨spec, driver, ⟨perms⟩⟩ := x
  have whole : #v[perms[0], perms[1], perms[2], perms[3], perms[4], perms[5], perms[6], perms[7]] = perms := by
    ext i inside
    have cases : i = 0 ∨ i = 1 ∨ i = 2 ∨ i = 3 ∨ i = 4 ∨ i = 5 ∨ i = 6 ∨ i = 7 := by omega
    rcases cases with rfl | rfl | rfl | rfl | rfl | rfl | rfl | rfl <;> rfl
  have made : Carries einval ByteWriter.skip (pure (.xperms
      { specified := spec, driver
        perms := ⟨#v[perms[0], perms[1], perms[2], perms[3], perms[4], perms[5], perms[6], perms[7]]⟩ }))
      (.xperms { specified := spec, driver, perms := ⟨perms⟩ } : AvtabDatum) := by
    rw [whole]
    exact .pure _
  unfold avtabReadDatum
  rw [if_pos extended]
  refine (u8_carries spec).cons ((u8_carries driver).cons (.nested ?_))
  exact (u32_carries _).cons ((u32_carries _).cons ((u32_carries _).cons ((u32_carries _).cons
    ((u32_carries _).cons ((u32_carries _).cons ((u32_carries _).cons ((u32_carries _).cons made)))))))

/-- A rule that was read is carried to itself. -/
theorem rule_carries {n : AvtabNode} (stored : RuleStored p (n.key, n.datum)) :
    Carries einval (avtabWriteItem n) (readRule p) (n.key, n.datum) := by
  unfold avtabWriteItem readRule
  refine (u16_carries _).cons ((u16_carries _).cons ((u16_carries _).cons ((u16_carries _).cons
    (.require stored.valid (.require stored.single (.require stored.version ?_))))))
  have typed : Carries einval ByteWriter.skip
      (ByteReader.require einval (n.key.specified &&& avtabType ≠ 0 → policydbTypeIsvalid p n.datum.u) >>=
        fun _ => pure (n.key, n.datum)) (n.key, n.datum) := .require stored.typed (.pure _)
  by_cases extended : n.key.specified &&& avtabXperms ≠ 0
  · rw [if_pos extended]
    obtain ⟨x, same⟩ := stored.extended extended
    dsimp only at same
    rw [same] at typed ⊢
    exact (xperms_carry x extended).cons typed
  · rw [if_neg extended]
    obtain ⟨data, same⟩ := stored.plain (not_not.mp extended)
    dsimp only at same
    rw [same] at typed ⊢
    unfold avtabReadDatum
    rw [if_neg extended]
    exact ((u32_carries data).map (g := AvtabDatum.data)).cons typed

end Items

section Refill

variable {h h' : Avtab} {done todo : List Rule}

/-- The insertions of `avtab_read`. -/
def refill (rules : List Rule) (h : Avtab) : Except Fault Avtab :=
  rules.foldlM (fun h r => avtabInsert h r.1 r.2) h

/-- A plain rule is not behind an extended one, nor a plain one, of its types and class that it shares
a specifier with. -/
def Orderly (rules : List Rule) : Prop :=
  rules.Pairwise fun a b => SameTriple b.1 a.1 → Overlaps b.1 a.1 → Extended b.1

def rule (n : AvtabNode) : Rule := (n.key, n.datum)

/-- The rules so far are in a table of `slots` chains. -/
structure Refilled (slots : Nat) (h : Avtab) (done : List Rule) : Prop where
  ok : AvtabOk h
  nel : h.nel = done.length
  slots : h.nslot = slots
  rules : (h.nodes.map rule).Perm done

theorem avtabChainInsert_goes {new : AvtabNode} {specified : U16} {chain : List AvtabNode}
    (apart : ∀ n ∈ chain, avtabMatch new.key specified n.key = true → specified &&& avtabXperms ≠ 0) :
    ∃ chain', avtabChainInsert new specified chain = .ok chain' := by
  induction chain with
  | nil => exact ⟨_, rfl⟩
  | cons cur next ih =>
    obtain ⟨next', later⟩ := ih fun n member => apart n (List.mem_cons_of_mem _ member)
    unfold avtabChainInsert
    by_cases hit : avtabMatch new.key specified cur.key = true
    · rw [if_pos hit, if_pos (apart cur List.mem_cons_self hit)]
      exact ⟨_, rfl⟩
    · rw [if_neg hit, later]
      split
      · exact ⟨_, rfl⟩
      · exact ⟨_, rfl⟩

/-- An insertion goes wrong only where the key is plain and shares a specifier with a rule. -/
theorem avtabInsert_goes_iff {slots : Nat} (some : slots ≠ 0) (few : done.length < 0xffffffff)
    (filled : Refilled slots h done) :
    (∃ h', avtabInsert h r.1 r.2 = .ok h') ↔
      ∀ a ∈ done, SameTriple r.1 a.1 → Overlaps r.1 a.1 → Extended r.1 := by
  have room : ¬ (h.nslot = 0 ∨ h.nel = 0xffffffff) := by
    rw [filled.slots, filled.nel, not_or]
    exact ⟨some, by omega⟩
  constructor
  · rintro ⟨h', inserted⟩ a member same overlaps
    by_contra plain
    obtain ⟨n, here, rfl⟩ := List.mem_map.mp (filled.rules.mem_iff.mpr member)
    rw [avtabInsert_refused filled.ok here same overlaps plain] at inserted
    cases inserted
  · intro apart
    have goes : ∃ chain, avtabChainInsert { addr := h.nel, key := r.1, datum := r.2 }
        (avtabSpecified r.1.specified) (h.htable.getD (avtabSlot h r.1) []) = .ok chain := by
      refine avtabChainInsert_goes fun n member hit => ?_
      obtain ⟨same, overlaps⟩ := avtabMatch_overlaps.mp hit
      have inTable : n ∈ h.nodes := by
        by_cases inside : avtabSlot h r.1 < h.htable.length
        · rw [List.getD_eq_getElem _ _ inside] at member
          exact List.mem_flatten.mpr ⟨_, List.getElem_mem inside, member⟩
        · rw [List.getD_eq_default _ _ (by omega)] at member
          cases member
      exact apart (rule n) (filled.rules.mem_iff.mp (List.mem_map_of_mem inTable)) same overlaps
    obtain ⟨chain, linked⟩ := goes
    unfold avtabInsert
    rw [if_neg room, linked]
    exact ⟨_, rfl⟩

theorem Refilled.more {slots : Nat} (filled : Refilled slots h done)
    (inserted : avtabInsert h r.1 r.2 = .ok h') : Refilled slots h' (done ++ [r]) := by
  obtain ⟨nel, -, perm⟩ := avtabInsert_perm inserted
  refine ⟨avtabInsert_ok filled.ok inserted, ?_, ?_, ?_⟩
  · rw [nel, filled.nel, List.length_append, List.length_singleton]
  · rw [← filled.slots]
    unfold avtabInsert at inserted
    split at inserted
    · cases inserted
    · split at inserted
      · cases inserted
      · cases inserted
        exact List.length_set
  · calc
      (h'.nodes.map rule).Perm (r :: h.nodes.map rule) := perm.map rule
      List.Perm _ (r :: done) := filled.rules.cons r
      List.Perm _ (done ++ [r]) := (List.perm_append_singleton _ _).symm

/-- Rules can be inserted one after the other exactly where they are orderly. -/
theorem refill_iff {slots : Nat} (some : slots ≠ 0) (few : (done ++ todo).length ≤ 0xffffffff)
    (filled : Refilled slots h done) (orderly : Orderly done) :
    (∃ h', refill todo h = .ok h') ↔ Orderly (done ++ todo) := by
  induction todo generalizing h done with
  | nil =>
    rw [List.append_nil]
    exact iff_of_true ⟨h, rfl⟩ orderly
  | cons r todo ih =>
    have less : done.length < 0xffffffff := by
      rw [List.length_append, List.length_cons] at few
      omega
    have goes := avtabInsert_goes_iff (r := r) some less filled
    have step : Orderly (done ++ [r]) ↔ ∀ a ∈ done, SameTriple r.1 a.1 → Overlaps r.1 a.1 → Extended r.1 := by
      unfold Orderly
      rw [List.pairwise_append]
      constructor
      · rintro ⟨-, -, across⟩ a member
        exact across a member r List.mem_cons_self
      · intro across
        refine ⟨orderly, List.pairwise_singleton _ _, fun a member b last => ?_⟩
        obtain rfl := List.mem_singleton.mp last
        exact across a member
    have whole : done ++ r :: todo = (done ++ [r]) ++ todo := by
      rw [List.append_assoc]
      rfl
    unfold refill
    rw [List.foldlM_cons, whole]
    constructor
    · rintro ⟨h', folded⟩
      obtain ⟨mid, inserted, later⟩ := exceptBind_ok.mp folded
      rw [whole] at few
      exact (ih few (filled.more inserted) (step.mpr (goes.mp ⟨mid, inserted⟩))).mp ⟨h', later⟩
    · intro all
      have first : Orderly (done ++ [r]) := List.Pairwise.sublist (List.sublist_append_left _ _) all
      obtain ⟨mid, inserted⟩ := goes.mpr (step.mp first)
      rw [whole] at few
      obtain ⟨h', later⟩ := (ih few (filled.more inserted) first).mpr all
      exact ⟨h', exceptBind_ok.mpr ⟨mid, inserted, later⟩⟩

theorem refill_filled {slots : Nat} (filled : Refilled slots h done) (refilled : refill todo h = .ok h') :
    Refilled slots h' (done ++ todo) := by
  induction todo generalizing h done with
  | nil =>
    cases refilled
    rw [List.append_nil]
    exact filled
  | cons r todo ih =>
    unfold refill at refilled
    rw [List.foldlM_cons] at refilled
    obtain ⟨mid, inserted, later⟩ := exceptBind_ok.mp refilled
    have more := ih (filled.more inserted) later
    rw [List.append_assoc] at more
    exact more

theorem alloc_refilled (nrules : U32) : Refilled (avtabAlloc nrules).nslot (avtabAlloc nrules) [] := by
  have logged := logged_alloc nrules
  refine ⟨logged.ok, logged.nel, rfl, ?_⟩
  have none : (avtabAlloc nrules).nodes = [] := by
    have length := logged.addrs.length_eq
    simp only [List.length_map, List.length_nil, List.length_range] at length
    exact List.length_eq_zero_iff.mp length
  rw [none]
  exact List.Perm.refl []

theorem alloc_slots {nrules : U32} (some : nrules ≠ 0) : (avtabAlloc nrules).nslot ≠ 0 := by
  unfold avtabAlloc Avtab.nslot
  rw [if_neg some, List.length_replicate]
  split
  · decide
  · exact Nat.ne_of_gt (Nat.two_pow_pos _)

end Refill

section Searches

variable {h h' : Avtab}

/-- A loop over the matches of a key visits them where the table has them. -/
theorem avtabMatches_nodes (ok : AvtabOk h) (key : AvtabKey) :
    avtabMatches h key = h.nodes.filter fun n => avtabMatch key (avtabSpecified key.specified) n.key := by
  have elsewhere : ∀ i n, n ∈ h.htable.getD i [] → i ≠ avtabSlot h key →
      ¬ avtabMatch key (avtabSpecified key.specified) n.key = true := by
    intro i n member other hit
    exact other (by rw [avtabSlot_congr h (avtabMatch_iff.mp hit).1, ok.placed i n member])
  have none : ∀ chains : List (List AvtabNode), (∀ chain ∈ chains, ∀ n ∈ chain,
      ¬ avtabMatch key (avtabSpecified key.specified) n.key = true) →
      chains.flatten.filter (fun n => avtabMatch key (avtabSpecified key.specified) n.key) = [] := by
    intro chains apart
    refine List.filter_eq_nil_iff.mpr fun n member => ?_
    obtain ⟨chain, listed, here⟩ := List.mem_flatten.mp member
    exact apart chain listed n here
  rw [avtabMatches_filter ok, Avtab.nodes]
  by_cases inside : avtabSlot h key < h.htable.length
  · have split : h.htable = h.htable.take (avtabSlot h key) ++
        h.htable[avtabSlot h key] :: h.htable.drop (avtabSlot h key + 1) := by
      rw [List.getElem_cons_drop, List.take_append_drop]
    have before := none (h.htable.take (avtabSlot h key)) fun chain listed n here => by
      obtain ⟨i, less, rfl⟩ := List.mem_iff_getElem.mp listed
      rw [List.length_take] at less
      rw [List.getElem_take, ← List.getD_eq_getElem _ [] (by omega)] at here
      exact elsewhere i n here (by omega)
    have behind := none (h.htable.drop (avtabSlot h key + 1)) fun chain listed n here => by
      obtain ⟨i, less, rfl⟩ := List.mem_iff_getElem.mp listed
      rw [List.length_drop] at less
      rw [List.getElem_drop, ← List.getD_eq_getElem _ [] (by omega)] at here
      exact elsewhere _ n here (by omega)
    rw [List.getD_eq_getElem _ _ inside]
    conv =>
      rhs
      rw [split]
    rw [List.flatten_append, List.flatten_cons, List.filter_append, List.filter_append, before, behind,
      List.nil_append, List.append_nil]
  · rw [List.getD_eq_default _ _ (by omega), List.filter_nil]
    refine (none h.htable fun chain listed n here => ?_).symm
    obtain ⟨i, less, rfl⟩ := List.mem_iff_getElem.mp listed
    rw [← List.getD_eq_getElem _ [] less] at here
    exact elsewhere i n here (by omega)

/-- Tables of the same rules offer the same rules for every key. -/
theorem matches_perm (ok : AvtabOk h) (ok' : AvtabOk h')
    (same : (h'.nodes.map rule).Perm (h.nodes.map rule)) (key : AvtabKey) :
    ((avtabMatches h' key).map rule).Perm ((avtabMatches h key).map rule) := by
  have filtered : ∀ {h : Avtab}, AvtabOk h → (avtabMatches h key).map rule =
      (h.nodes.map rule).filter fun r => avtabMatch key (avtabSpecified key.specified) r.1 := by
    intro h ok
    rw [avtabMatches_nodes ok, List.filter_map]
    rfl
  rw [filtered ok, filtered ok']
  exact same.filter _

end Searches

section Tables

variable {a again : Avtab}

theorem avtabRead_rounds (newer : policydbVersionAvtab ≤ p.policyvers) :
    avtabRead p = nextU32 >>= fun nel => ByteReader.require einval (nel ≠ 0) >>= fun _ =>
      rounds (readRule p) (fun h r => avtabInsert h r.1 r.2) nel.toNat (avtabAlloc nel) := by
  have items : avtabReadItem p (fun key datum a => avtabInsert a key datum) =
      fun h => readRule p >>= fun r => ByteReader.lift (avtabInsert h r.1 r.2) :=
    funext (avtabReadItem_rule newer _)
  unfold avtabRead rounds
  rw [items]

/-- What was read are rules that pass the checks, as many as the table counts. -/
theorem avtabRead_rules (newer : policydbVersionAvtab ≤ p.policyvers)
    (read : avtabRead p bytes = .ok (a, rest)) :
    ∃ (nel : U32) (rules : List Rule), nel ≠ 0 ∧ rules.length = nel.toNat ∧ (∀ r ∈ rules, RuleStored p r) ∧
      refill rules (avtabAlloc nel) = .ok a := by
  rw [avtabRead_rounds newer] at read
  simp only [ByteReader.bind_ok, ByteReader.require_ok] at read
  obtain ⟨nel, _, -, _, _, ⟨some, -⟩, loop⟩ := read
  obtain ⟨rules, row, folded⟩ := rounds_several loop
  exact ⟨nel, rules, some, ByteReader.several_length row,
    ByteReader.several_all (fun _ _ _ once => readRule_stored once) row, folded⟩

/-- Specifiers of `spec_order` that overlap are the same. -/
theorem orderly_known {rules rules' : List Rule} (known : ∀ r ∈ rules, avtabSpecified r.1.specified ∈ specOrder)
    (orderly : Orderly rules) (same : rules'.Perm rules) : Orderly rules' := by
  have apart : (specOrder.all fun x => specOrder.all fun y => x &&& y == 0 || x == y) = true := by decide
  have alone : ∀ x ∈ specOrder, ∀ y ∈ specOrder, x &&& y ≠ 0 → x = y := by
    intro x inX y inY shared
    have pair := List.all_eq_true.mp (List.all_eq_true.mp apart x inX) y inY
    rw [Bool.or_eq_true, beq_iff_eq, beq_iff_eq] at pair
    exact pair.resolve_left shared
  have both : rules.Pairwise fun a b => (SameTriple b.1 a.1 → Overlaps b.1 a.1 → Extended b.1) ∧
      (SameTriple a.1 b.1 → Overlaps a.1 b.1 → Extended a.1) := by
    refine List.Pairwise.imp_of_mem (fun {a b} inA inB first => ⟨first, fun same overlaps => ?_⟩) orderly
    have specifiers := alone _ (known a inA) _ (known b inB) overlaps
    have back : Overlaps b.1 a.1 := by
      unfold Overlaps
      rw [BitVec.and_comm]
      exact overlaps
    have extended := first ⟨same.1.symm, same.2.1.symm, same.2.2.symm⟩ back
    unfold Extended at extended ⊢
    rw [specifiers]
    exact extended
  have symmetric := (same.pairwise_iff (fun {a b} pair => ⟨pair.2, pair.1⟩)).mpr both
  exact symmetric.imp fun pair => pair.1

/-- The file of a table is read as its rules are inserted. -/
theorem avtab_written {nel : U32} (newer : policydbVersionAvtab ≤ p.policyvers) (some : nel ≠ 0)
    (count : BitVec.ofNat 32 a.nel = nel) (number : a.nodes.length = nel.toNat)
    (stored : ∀ n ∈ a.nodes, RuleStored p (rule n)) :
    ∃ written, ByteWriter.Emits einval (avtabWrite a) written ∧
      ∀ again, ByteReader.Takes (avtabRead p) written again ↔
        refill (a.nodes.map rule) (avtabAlloc nel) = .ok again := by
  have each : ∀ n : AvtabNode, ∃ bytes, n ∈ a.nodes → ByteWriter.Emits einval (avtabWriteItem n) bytes ∧
      ByteReader.Takes (readRule p) bytes (rule n) := by
    intro n
    by_cases member : n ∈ a.nodes
    · obtain ⟨bytes, emits, takes⟩ := rule_carries (stored n member)
      exact ⟨bytes, fun _ => ⟨emits, takes⟩⟩
    · exact ⟨[], fun here => absurd here member⟩
  choose item written using each
  have words : ByteWriter.Emits einval (putCount a.nel) (cpuToLe32 nel) := by
    rw [← count]
    exact ByteWriter.emits_put
  have emits : ByteWriter.Emits einval (avtabWrite a) (cpuToLe32 nel ++ (a.nodes.flatMap item ++ [])) :=
    words.andThen ((ByteWriter.emits_each fun n member => (written n member).1).andThen ByteWriter.emits_skip)
  rw [List.append_nil] at emits
  have reads : ∀ more, avtabRead p (cpuToLe32 nel ++ a.nodes.flatMap item ++ more) =
      (refill (a.nodes.map rule) (avtabAlloc nel)).map fun again => (again, more) := by
    intro more
    have loop : rounds (readRule p) (fun h r => avtabInsert h r.1 r.2) a.nodes.length (avtabAlloc nel)
        (a.nodes.flatMap item ++ more) =
          (refill (a.nodes.map rule) (avtabAlloc nel)).map fun again => (again, more) :=
      rounds_takes (fun n member => (written n member).2) (avtabAlloc nel) more
    rw [number] at loop
    rw [avtabRead_rounds newer, List.append_assoc]
    change ByteReader.andThen nextU32 _ _ = _
    unfold ByteReader.andThen
    rw [EbitmapRoundTrip.nextU32_put nel]
    dsimp only
    change ByteReader.andThen (ByteReader.require einval (nel ≠ 0)) _ _ = _
    unfold ByteReader.andThen ByteReader.require
    rw [if_pos some]
    exact loop
  refine ⟨_, emits, fun again => ?_⟩
  unfold ByteReader.Takes
  simp only [reads]
  cases refill (a.nodes.map rule) (avtabAlloc nel) with
  | error e => simp [Except.map]
  | ok made => simp [Except.map]

/-- What a table that was read is read back to, where it is read back. -/
theorem avtab_file (newer : policydbVersionAvtab ≤ p.policyvers) (read : avtabRead p bytes = .ok (a, rest)) :
    AvtabOk a ∧ ∃ written, ByteWriter.Emits einval (avtabWrite a) written ∧
      ((∃ again, ByteReader.Takes (avtabRead p) written again) ↔ Orderly (a.nodes.map rule)) ∧
      ((∀ n ∈ a.nodes, avtabSpecified n.key.specified ∈ specOrder) → Orderly (a.nodes.map rule)) ∧
      ∀ again, ByteReader.Takes (avtabRead p) written again → again.nel = a.nel ∧ AvtabOk again ∧
        (again.nodes.map rule).Perm (a.nodes.map rule) := by
  obtain ⟨nel, rules, some, length, stored, refilled⟩ := avtabRead_rules newer read
  have start := alloc_refilled nel
  have slots := alloc_slots some
  have filled := refill_filled start refilled
  rw [List.nil_append] at filled
  have count : BitVec.ofNat 32 a.nel = nel := by
    rw [filled.nel, length, BitVec.ofNat_toNat, BitVec.setWidth_eq]
  have number : a.nodes.length = nel.toNat := by
    have same := filled.rules.length_eq
    rw [List.length_map] at same
    omega
  have few : ∀ {rules : List Rule}, rules.length = nel.toNat → ([] ++ rules).length ≤ 0xffffffff := by
    intro rules length
    have := nel.isLt
    rw [List.nil_append]
    omega
  obtain ⟨written, emits, taken⟩ := avtab_written newer some count number fun n member =>
    stored (rule n) (filled.rules.mem_iff.mp (List.mem_map_of_mem member))
  refine ⟨filled.ok, written, emits, ?_, ?_, ?_⟩
  · simp only [taken]
    exact refill_iff slots (few (by rw [List.length_map, number])) start List.Pairwise.nil
  · intro known
    have fileOrder : Orderly rules :=
      (refill_iff slots (few length) start List.Pairwise.nil).mp ⟨a, refilled⟩
    refine orderly_known (fun r member => ?_) fileOrder filled.rules
    obtain ⟨n, here, rfl⟩ := List.mem_map.mp (filled.rules.mem_iff.mpr member)
    exact known n here
  · intro again takes
    have refilledAgain := refill_filled start ((taken again).mp takes)
    rw [List.nil_append] at refilledAgain
    refine ⟨?_, refilledAgain.ok, refilledAgain.rules⟩
    rw [refilledAgain.nel, List.length_map, number, filled.nel, length]

/-- A table of unconditional rules that was read is written to a file that is read back exactly where no
plain rule comes behind an extended one of its key that it shares a specifier with, as where all
specifiers are those of `spec_order`. Every search then visits the same rules. -/
theorem avtab_roundtrip (newer : policydbVersionAvtab ≤ p.policyvers)
    (read : avtabRead p bytes = .ok (a, rest)) :
    ∃ written, ByteWriter.Emits einval (avtabWrite a) written ∧
      ((∃ again, ByteReader.Takes (avtabRead p) written again) ↔ Orderly (a.nodes.map rule)) ∧
      ((∀ n ∈ a.nodes, avtabSpecified n.key.specified ∈ specOrder) → Orderly (a.nodes.map rule)) ∧
      ∀ again, ByteReader.Takes (avtabRead p) written again → again.nel = a.nel ∧
        ∀ key, ((avtabMatches again key).map rule).Perm ((avtabMatches a key).map rule) := by
  obtain ⟨ok, written, emits, taken, orderly, same⟩ := avtab_file newer read
  refine ⟨written, emits, taken, orderly, fun again takes => ?_⟩
  obtain ⟨nel, okAgain, rules⟩ := same again takes
  exact ⟨nel, matches_perm ok okAgain rules⟩

/-- Two types and a class. -/
def twoTypes : Policydb :=
  { policydbInit with
    policyvers := 33
    pTypes := { policydbInit.pTypes with nprim := 2 }
    pClasses := { policydbInit.pClasses with nprim := 1 } }

theorem avtab_roundtrip_two : ∃ a, avtabRead twoTypes
    (counted [ruleBytes 1 2 1 1 1, ruleBytes 1 2 1 4 1]) = .ok (a, []) ∧
      ∃ written again, ByteWriter.Emits einval (avtabWrite a) written ∧
        ByteReader.Takes (avtabRead twoTypes) written again := by
  have accepted : (match avtabRead twoTypes (counted [ruleBytes 1 2 1 1 1, ruleBytes 1 2 1 4 1]) with
      | .ok (a, rest) => rest.isEmpty && a.nodes.all fun n => specOrder.contains (avtabSpecified n.key.specified)
      | .error _ => false) = true := by decide
  cases read : avtabRead twoTypes (counted [ruleBytes 1 2 1 1 1, ruleBytes 1 2 1 4 1]) with
  | error e =>
    rw [read] at accepted
    cases accepted
  | ok pair =>
    obtain ⟨a, rest⟩ := pair
    rw [read] at accepted
    simp only [Bool.and_eq_true, List.isEmpty_iff, List.all_eq_true, List.contains_iff_mem] at accepted
    obtain ⟨rfl, known⟩ := accepted
    obtain ⟨written, emits, taken, orderly, -⟩ := avtab_roundtrip (by decide) read
    obtain ⟨again, takes⟩ := taken.mpr (orderly known)
    exact ⟨a, rfl, written, again, emits, takes⟩

end Tables

end Ksrc.Guarantees.RuleFiles

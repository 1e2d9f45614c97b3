import Ksrc.Guarantees.CondRuleItems
import Ksrc.Guarantees.PolicydbStages
import Ksrc.Guarantees.PolicyImages

/-!
# Conditional rules and the lists that own them

Source: `security/selinux/ss/conditional.c` (`cond_insertf`, `cond_read_av_list`,
`cond_read_list`), `avtab.c` (`avtab_read_item`).

Below `POLICYDB_VERSION_AVTAB` one item of a list may name several specifiers. Each is a rule of
`te_cond_avtab`, and only the last one of the item is on the list.
-/
namespace Ksrc.Guarantees.RuleOwners

open Library Source PolicydbShape PolicydbStages
  RuleLog CondRuleItems PolicyImages

/-- The conditional rules of a policy are those of the items of its image. -/
structure RulesFrom (p : Policydb) (image : List CondItems) : Prop where
  logged : Logged p.teCondAvtab (allKeys image)
  conds : CondsRead p.teAvtab image p.condList
  singles : policydbVersionAvtab ≤ p.policyvers → ∀ item ∈ allItems image, item.length = 1

section Read

variable {p q : Policydb} {image : List CondItems} {bytes rest : List U8}

/-- From `POLICYDB_VERSION_AVTAB` on an item is one rule. -/
theorem readItemKeys_single {keys : List AvtabKey} (new : policydbVersionAvtab ≤ p.policyvers)
    (read : readItemKeys p bytes = .ok (keys, rest)) : keys.length = 1 := by
  unfold readItemKeys avtabReadItem at read
  rw [if_neg (BitVec.not_lt.mpr new)] at read
  simp only [ByteReader.bind_ok, ByteReader.lift_ok, Except.ok.injEq] at read
  obtain ⟨_, _, -, _, _, -, _, _, -, _, _, -, _, _, -, _, _, -, _, _, -, _, _, -, _, _, -, rfl, -⟩ := read
  rfl

theorem readItems_single {items : List (List AvtabKey)} (new : policydbVersionAvtab ≤ p.policyvers)
    (read : readItems p bytes = .ok (items, rest)) : ∀ item ∈ items, item.length = 1 := by
  simp only [readItems, ByteReader.bind_ok] at read
  obtain ⟨len, _, -, loop⟩ := read
  exact ByteReader.several_all (fun _ _ _ item => readItemKeys_single new item) loop

theorem readConds_single (new : policydbVersionAvtab ≤ p.policyvers)
    (read : readConds p bytes = .ok (image, rest)) : ∀ item ∈ allItems image, item.length = 1 := by
  simp only [readConds, ByteReader.bind_ok] at read
  obtain ⟨len, _, -, loop⟩ := read
  have each : ∀ c ∈ image, ∀ item ∈ c.items, item.length = 1 := by
    refine ByteReader.several_all (fun bytes c rest once => ?_) loop
    simp only [readCond, ByteReader.bind_ok, ByteReader.pure_ok] at once
    obtain ⟨_, _, -, _, _, -, _, _, -, trueItems, _, trues, falseItems, _, falses, rfl, -⟩ := once
    intro item member
    rcases List.mem_append.mp member with inTrue | inFalse
    · exact readItems_single new trues item inTrue
    · exact readItems_single new falses item inFalse
  intro item member
  obtain ⟨c, inImage, inItems⟩ := List.mem_flatMap.mp member
  exact each c inImage item inItems

theorem rulesFrom_nil (noRules : p.teCondAvtab = avtabInit) (noList : p.condList = []) :
    RulesFrom p [] := by
  constructor
  · rw [noRules]
    exact logged_alloc 0
  · rw [noList]
    constructor
    · simp [allItems]
    · rfl
    · simp
  · intro _ item member
    cases member

theorem RulesFrom.transfer (from_q : RulesFrom q image) (vers : p.policyvers = q.policyvers)
    (rules : p.teAvtab = q.teAvtab) (condRules : p.teCondAvtab = q.teCondAvtab)
    (condList : p.condList = q.condList) : RulesFrom p image := by
  constructor
  · rw [condRules]
    exact from_q.logged
  · rw [rules, condList]
    exact from_q.conds
  · rw [vers]
    exact from_q.singles

theorem policydbReadRules_from {info : PolicydbCompatInfo}
    (read : policydbReadRules bytes = .ok ((p, info), rest)) :
    ∃ image more, imageConds bytes = .ok (image, more) ∧ RulesFrom p image := by
  obtain ⟨s, rfl⟩ := policydbReadRules_steps read
  have start : ∀ {image more},
      (if policydbVersionBool ≤ s.p₁.policyvers then
          readConds { s.p₁ with
            processClass := stringToSecurityClass s.p₁ processName, teAvtab := s.teAvtab }
        else pure []) s.atConds = .ok (image, more) → imageConds bytes = .ok (image, more) := by
    intro image more made
    unfold imageConds
    rw [ByteReader.bind_ok]
    refine ⟨(s.p₀, info), _, s.header, ?_⟩
    dsimp only
    rw [ByteReader.bind_ok]
    refine ⟨s.p₁, _, s.symtabs, ?_⟩
    rw [ByteReader.bind_ok]
    exact ⟨s.teAvtab, _, s.rules, made⟩
  suffices from_read : ∃ image more, imageConds bytes = .ok (image, more) ∧ RulesFrom s.p₂ image by
    obtain ⟨image, more, same, from_cond⟩ := from_read
    refine ⟨image, more, same, from_cond.transfer ?_ ?_ ?_ ?_⟩ <;> rw [s.frame]
  have cond := s.conds
  split at cond
  · rename_i conditional
    obtain ⟨image, same, logged, conds⟩ := condReadList_items cond
    have frame := (condReadList_ok cond).2
    refine ⟨image, s.atRoles, start ?_, ?_⟩
    · rw [if_pos conditional]
      exact same
    · constructor
      · exact logged
      · rw [frame]
        exact conds
      · rw [frame]
        intro new
        exact readConds_single new same
  · rename_i old
    obtain ⟨made, -⟩ := ByteReader.pure_ok.mp cond
    refine ⟨[], s.atConds, start ?_, ?_⟩
    · rw [if_neg old]
      rfl
    · rw [← made]
      exact rulesFrom_nil s.noConds.1 s.noConds.2

/-- The conditional rules of an accepted image come from its items. -/
theorem policydbRead_from (read : policydbRead bytes = .ok (p, rest)) :
    ∃ image more, imageConds bytes = .ok (image, more) ∧ RulesFrom p image := by
  obtain ⟨s, rfl⟩ := policydbRead_steps read
  obtain ⟨image, more, same, from_rules⟩ := policydbReadRules_from s.rules
  exact ⟨image, more, same, from_rules.transfer rfl rfl rfl rfl⟩

end Read

section Owners

variable {p : Policydb} {image : List CondItems} {bytes rest : List U8}

/-- Every node of `te_cond_avtab` stands once on all the lists together. -/
def Owned (p : Policydb) : Prop := ∀ n ∈ p.teCondAvtab.nodes, (listed p.condList).count n.addr = 1

instance : Decidable (Owned p) :=
  inferInstanceAs (Decidable (∀ n ∈ p.teCondAvtab.nodes, (listed p.condList).count n.addr = 1))

/-- No address stands on the lists more than once. -/
theorem listed_nodup (from_image : RulesFrom p image) : (listed p.condList).Nodup := by
  rw [from_image.conds.listed]
  exact ends_nodup from_image.conds.full

theorem owned_iff_singles (from_image : RulesFrom p image) :
    Owned p ↔ ∀ item ∈ allItems image, item.length = 1 := by
  have covered := ends_cover (n := 0) from_image.conds.full
  rw [← from_image.conds.listed] at covered
  rw [← covered]
  unfold Owned
  constructor
  · intro owned i _ below
    rw [Nat.zero_add] at below
    obtain ⟨n, member, rfl⟩ := from_image.logged.node_at below
    have once := owned n member
    apply List.count_pos_iff.mp
    omega
  · intro all n member
    have onList := all n.addr (Nat.zero_le _) (by
      rw [Nat.zero_add]
      exact from_image.logged.inside member)
    exact List.count_eq_one_of_mem (listed_nodup from_image) onList

/-- Every conditional rule of an accepted image is on exactly one list if and only if every item
of the image's conditional lists is one rule; from `POLICYDB_VERSION_AVTAB` on it always is. -/
theorem conditional_rules_owned (read : policydbRead bytes = .ok (p, rest)) :
    ∃ image more, imageConds bytes = .ok (image, more) ∧
      (Owned p ↔ ∀ item ∈ allItems image, item.length = 1) ∧
      (policydbVersionAvtab ≤ p.policyvers → ∀ item ∈ allItems image, item.length = 1) := by
  obtain ⟨image, more, same, from_image⟩ := policydbRead_from read
  exact ⟨image, more, same, owned_iff_singles from_image, from_image.singles⟩

/-- A true list whose one item is a transition and a change rule. -/
def pairImage : PolicyImage :=
  oldImage [oldItemBytes 2 2 1 1 [1]] [condBytes 0 [(1, 1)] [oldItemBytes 1 1 1 0x50 [1, 2]] []]

theorem conditional_rules_owned_pair :
    ∃ p rest, policydbRead pairImage.bytes = .ok (p, rest) ∧
      ∃ image more, imageConds pairImage.bytes = .ok (image, more) ∧
        (Owned p ↔ ∀ item ∈ allItems image, item.length = 1) ∧
        (policydbVersionAvtab ≤ p.policyvers → ∀ item ∈ allItems image, item.length = 1) := by
  have accepted : pairImage.accepts (fun _ => true) = true := by decide +kernel
  obtain ⟨p, rest, read, -⟩ := PolicyImage.accepts_iff.mp accepted
  exact ⟨p, rest, read, conditional_rules_owned read⟩

/-- The transition rule is on no list. -/
theorem conditional_rule_unlisted :
    ∃ p rest, policydbRead pairImage.bytes = .ok (p, rest) ∧ ¬ Owned p ∧
      ∃ n ∈ p.teCondAvtab.nodes, n.addr ∉ listed p.condList := by
  have accepted : pairImage.accepts (fun p => !decide (Owned p) &&
      p.teCondAvtab.nodes.any fun n => !(listed p.condList).contains n.addr) = true := by
    decide +kernel
  obtain ⟨p, rest, read, test⟩ := PolicyImage.accepts_iff.mp accepted
  simp only [Bool.and_eq_true, Bool.not_eq_true', decide_eq_false_iff_not, List.any_eq_true,
    List.contains_eq_mem] at test
  obtain ⟨lost, n, member, unlisted⟩ := test
  exact ⟨p, rest, read, lost, n, member, unlisted⟩

end Owners

end Ksrc.Guarantees.RuleOwners

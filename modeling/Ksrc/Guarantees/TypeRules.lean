import Ksrc.Guarantees.RuleOwners

/-!
# The type rules of a transition

Source: `security/selinux/ss/conditional.c` (`cond_insertf`, `cond_read_av_list`), `avtab.c`
(`avtab_insert`, `avtab_insert_nonunique`, `avtab_search_node`), `services.c`
(`security_compute_sid`).

`avtab_insert` refuses a second rule outside of the conditionals, and `cond_insertf` a second one
inside, but for a rule of a false list whose only twin is on the true list of its conditional.
-/
namespace Ksrc.Guarantees.TypeRules

open Library Source AvtabEnumeration PolicydbShape
  PolicydbStages RuleLog CondRuleItems
  RuleOwners PolicyImages

def typeSpecs : List U16 := [avtabTransition, avtabMember, avtabChange]

/-- The rules share a type specifier, for the same types and class. -/
def Twin (k k' : AvtabKey) : Prop := avtabMatch k (k.specified &&& avtabType) k' = true

instance (k k' : AvtabKey) : Decidable (Twin k k') :=
  inferInstanceAs (Decidable (avtabMatch k (k.specified &&& avtabType) k' = true))

section Specifiers

variable {spec x y : U16} {k k' : AvtabKey}

/-- A type specifier is a single bit. -/
theorem typeSpec_bit (known : spec ∈ typeSpecs) (hit : x &&& spec ≠ 0) : x &&& spec = spec := by
  have bit : ∃ i, spec = BitVec.twoPow 16 i := by
    simp only [typeSpecs, List.mem_cons, List.not_mem_nil, or_false] at known
    rcases known with rfl | rfl | rfl
    · exact ⟨4, by decide⟩
    · exact ⟨5, by decide⟩
    · exact ⟨6, by decide⟩
  obtain ⟨i, rfl⟩ := bit
  rw [BitVec.and_twoPow] at hit ⊢
  by_cases set : x.getLsbD i = true
  · rw [if_pos set]
  · rw [if_neg set] at hit
    exact absurd rfl hit

theorem typeSpec_ne (known : spec ∈ typeSpecs) :
    spec ≠ 0 ∧ spec &&& avtabType = spec ∧ avtabSpecified spec = spec := by
  simp only [typeSpecs, List.mem_cons, List.not_mem_nil, or_false] at known
  rcases known with rfl | rfl | rfl <;> decide

/-- Two specifiers that have a type bit in common, under a mask that keeps it. -/
theorem shared_masked {mask : U16} (known : spec ∈ typeSpecs) (kept : mask &&& spec = spec)
    (here : x &&& spec ≠ 0) (there : y &&& spec ≠ 0) : x &&& mask &&& y ≠ 0 := by
  intro none
  apply (typeSpec_ne known).1
  calc
    spec = (x &&& spec) &&& (mask &&& spec) &&& (y &&& spec) := by
      rw [typeSpec_bit known here, kept, typeSpec_bit known there, BitVec.and_self, BitVec.and_self]
    _ = (x &&& mask &&& y) &&& spec := by
      ext i
      simp only [BitVec.getElem_and]
      cases x[i] <;> cases mask[i] <;> cases y[i] <;> simp
    _ = 0 := by
      rw [none]
      simp

theorem match_of_shared (same : keyCode k = keyCode k') (known : spec ∈ typeSpecs)
    (here : k.specified &&& spec ≠ 0) (there : k'.specified &&& spec ≠ 0) :
    avtabMatch k (avtabSpecified k.specified) k' = true := by
  rw [avtabMatch_iff]
  refine ⟨same, shared_masked known ?_ here there⟩
  simp only [typeSpecs, List.mem_cons, List.not_mem_nil, or_false] at known
  rcases known with rfl | rfl | rfl <;> decide

theorem twin_of_shared (same : keyCode k = keyCode k') (known : spec ∈ typeSpecs)
    (here : k.specified &&& spec ≠ 0) (there : k'.specified &&& spec ≠ 0) : Twin k k' := by
  unfold Twin
  rw [avtabMatch_iff]
  refine ⟨same, shared_masked known ?_ here there⟩
  rw [BitVec.and_comm]
  exact (typeSpec_ne known).2.1

theorem shared_of_twin (twin : Twin k k') :
    keyCode k = keyCode k' ∧
      ∃ spec ∈ typeSpecs, k.specified &&& spec ≠ 0 ∧ k'.specified &&& spec ≠ 0 := by
  obtain ⟨same, shared⟩ := avtabMatch_iff.mp twin
  refine ⟨same, ?_⟩
  by_contra none
  push Not at none
  have apart : ∀ spec ∈ typeSpecs, k.specified &&& spec &&& k'.specified = 0 := by
    intro spec known
    by_cases here : k.specified &&& spec = 0
    · rw [here]
      simp
    · have there := none spec known here
      rw [BitVec.and_assoc, BitVec.and_comm spec, there]
      simp
  apply shared
  have transition := apart avtabTransition (by decide)
  have member := apart avtabMember (by decide)
  have change := apart avtabChange (by decide)
  simp only [avtabType, BitVec.and_or_distrib_left, BitVec.and_or_distrib_right, transition, member,
    change]
  decide

theorem typed_of_spec (known : spec ∈ typeSpecs) (hit : x &&& spec ≠ 0) : x &&& avtabType ≠ 0 := by
  intro none
  apply hit
  rw [← (typeSpec_ne known).2.1, BitVec.and_comm spec, ← BitVec.and_assoc, none]
  simp

/-- A rule with a single specifier is not both an extended one and a type rule. -/
theorem untyped_of_xperms (single : specCount x = 1) (extended : x &&& avtabXperms ≠ 0)
    (known : spec ∈ typeSpecs) : x &&& spec = 0 := by
  by_contra hit
  have three : x &&& avtabXpermsAllowed ≠ 0 ∨ x &&& avtabXpermsAuditallow ≠ 0 ∨
      x &&& avtabXpermsDontaudit ≠ 0 := by
    by_contra none
    push Not at none
    apply extended
    rw [avtabXperms, BitVec.and_or_distrib_left, BitVec.and_or_distrib_left, none.1, none.2.1, none.2.2]
    decide
  have two : 2 ≤ specCount x := by
    simp only [typeSpecs, List.mem_cons, List.not_mem_nil, or_false] at known
    simp only [specCount, specOrder, List.countP_cons, List.countP_nil]
    rcases known with rfl | rfl | rfl <;> rcases three with other | other | other <;>
      simp only [hit, other, ne_eq, not_false_eq_true, decide_true, if_true] <;> omega
  omega

end Specifiers

section Unconditional

/-- The rules of a chain share no type specifier. -/
def ChainApart (chain : List AvtabNode) : Prop :=
  chain.Pairwise fun a b => ∀ spec ∈ typeSpecs, keyCode a.key = keyCode b.key →
    a.key.specified &&& spec ≠ 0 → b.key.specified &&& spec = 0

variable {new : AvtabNode} {specified : U16} {chain chain' : List AvtabNode} {h h' : Avtab}
  {key : AvtabKey} {datum : AvtabDatum}

/-- An insertion of another rule than an extended one has met no match. -/
theorem avtabChainInsert_unmatched (sorted : ChainSorted chain) (plain : specified &&& avtabXperms = 0)
    (inserted : avtabChainInsert new specified chain = .ok chain') :
    ∀ n ∈ chain, avtabMatch new.key specified n.key = false := by
  induction chain generalizing chain' with
  | nil => simp
  | cons cur next ih =>
    have later := (List.pairwise_cons.mp sorted).1
    unfold avtabChainInsert at inserted
    split at inserted
    · rw [if_neg (by simp [plain])] at inserted
      cases inserted
    · rename_i unmatched
      rw [List.forall_mem_cons]
      refine ⟨Bool.not_eq_true _ ▸ unmatched, ?_⟩
      split at inserted
      · rename_i before
        intro n member
        rw [Bool.eq_false_iff]
        intro hit
        have same := (avtabMatch_iff.mp hit).1
        have less := avtabBefore_iff.mp before
        have order := later n member
        omega
      · split at inserted
        · cases inserted
        · rename_i next' linked
          exact ih (List.pairwise_cons.mp sorted).2 linked

theorem avtabChainInsert_apart (sorted : ChainSorted chain) (apart : ChainApart chain)
    (single : specCount new.key.specified = 1)
    (inserted : avtabChainInsert new (avtabSpecified new.key.specified) chain = .ok chain') :
    ChainApart chain' := by
  have unlike : ∀ n ∈ chain, ∀ spec ∈ typeSpecs, keyCode new.key = keyCode n.key →
      new.key.specified &&& spec ≠ 0 → n.key.specified &&& spec = 0 := by
    intro n member spec known same here
    by_contra there
    have matched := match_of_shared same known here there
    have plain : avtabSpecified new.key.specified &&& avtabXperms = 0 := by
      have masked : avtabSpecified new.key.specified &&& avtabXperms =
          new.key.specified &&& avtabXperms := by
        rw [avtabSpecified, BitVec.and_assoc]
        rfl
      rw [masked]
      by_contra extended
      exact here (untyped_of_xperms single extended known)
    rw [avtabChainInsert_unmatched sorted plain inserted n member] at matched
    cases matched
  obtain ⟨before, behind, rfl, rfl, -, -⟩ := (avtabChainInsert_at inserted).parts
  unfold ChainApart at apart ⊢
  rw [List.pairwise_append] at apart ⊢
  obtain ⟨front, back, across⟩ := apart
  refine ⟨front, List.pairwise_cons.mpr ⟨?_, back⟩, ?_⟩
  · intro n member
    exact unlike n (List.mem_append_right _ member)
  · intro a inFront b inBack
    rcases List.mem_cons.mp inBack with rfl | inBack
    · intro spec known same here
      by_contra there
      exact here (unlike a (List.mem_append_left _ inFront) spec known same.symm there)
    · exact across a inFront b inBack

/-- A table in order whose chains share no type specifier. -/
structure RulesApart (h : Avtab) : Prop where
  ok : AvtabOk h
  apart : ∀ i, ChainApart (h.htable.getD i [])

theorem avtabInsert_apart (rules : RulesApart h) (single : specCount key.specified = 1)
    (inserted : avtabInsert h key datum = .ok h') : RulesApart h' := by
  refine ⟨avtabInsert_ok rules.ok inserted, ?_⟩
  unfold avtabInsert at inserted
  split at inserted
  · cases inserted
  · split at inserted
    · cases inserted
    · rename_i chain linked
      cases inserted
      intro i
      have kept := avtabChainInsert_apart (rules.ok.sorted _) (rules.apart _) single linked
      by_cases here : avtabSlot h key = i
      · subst here
        by_cases inside : avtabSlot h key < h.htable.length
        · simp only [List.getD_eq_getElem?_getD, List.getElem?_set_self inside, Option.getD_some]
          exact kept
        · rw [List.set_eq_of_length_le (by omega)]
          exact rules.apart _
      · simp only [List.getD_eq_getElem?_getD, List.getElem?_set_ne here]
        rw [← List.getD_eq_getElem?_getD]
        exact rules.apart i

theorem avtabRead_apart {p : Policydb} {bytes rest : List U8}
    (read : avtabRead p bytes = .ok (h, rest)) : RulesApart h := by
  simp only [avtabRead, ByteReader.bind_ok] at read
  obtain ⟨nel, _, -, _, _, -, loop⟩ := read
  have start : RulesApart (avtabAlloc nel) := by
    refine ⟨avtabAlloc_ok nel, fun i => ?_⟩
    have empty : (avtabAlloc nel).htable.getD i [] = [] := by
      unfold avtabAlloc avtabInit
      split
      · rfl
      · exact replicate_chain _ i
    rw [empty]
    exact List.Pairwise.nil
  exact ByteReader.times_preserves RulesApart (fun _ _ _ _ rules once => avtabReadItem_preserves RulesApart
    (fun _ _ _ _ single rules inserted => avtabInsert_apart rules single inserted) rules once) start loop

end Unconditional

/-- The key that asks for the rules of one type specifier. -/
def typeKey (sourceType targetType targetClass spec : U16) : AvtabKey :=
  { sourceType, targetType, targetClass, specified := spec }

section Matches

variable {h : Avtab} {log : List AvtabKey} {source target cls spec : U16} {n : AvtabNode} {i : Nat}

theorem mem_typeMatches (ok : AvtabOk h) (known : spec ∈ typeSpecs) :
    n ∈ avtabMatches h (typeKey source target cls spec) ↔ n ∈ h.nodes ∧
      keyCode (typeKey source target cls spec) = keyCode n.key ∧ n.key.specified &&& spec ≠ 0 := by
  rw [mem_avtabMatches ok, avtabMatch_iff]
  have plain : avtabSpecified (typeKey source target cls spec).specified = spec :=
    (typeSpec_ne known).2.2
  rw [plain, BitVec.and_comm]

theorem matchAt_typeKey (known : spec ∈ typeSpecs) :
    MatchAt log (typeKey source target cls spec) i ↔ ∃ key, log[i]? = some key ∧
      keyCode (typeKey source target cls spec) = keyCode key ∧ key.specified &&& spec ≠ 0 := by
  have plain : avtabSpecified (typeKey source target cls spec).specified = spec :=
    (typeSpec_ne known).2.2
  unfold MatchAt
  simp only [avtabMatch_iff, plain, BitVec.and_comm]

/-- Outside of the conditionals there is at most one rule of a type specifier. -/
theorem typeMatches_one (rules : RulesApart h) (known : spec ∈ typeSpecs) :
    (avtabMatches h (typeKey source target cls spec)).length ≤ 1 := by
  by_contra many
  have ok := rules.ok
  have each : ∀ n ∈ avtabMatches h (typeKey source target cls spec),
      keyCode (typeKey source target cls spec) = keyCode n.key ∧ n.key.specified &&& spec ≠ 0 :=
    fun n member => ((mem_typeMatches ok known).mp member).2
  have apart : ChainApart (avtabMatches h (typeKey source target cls spec)) := by
    rw [avtabMatches_filter ok]
    exact (rules.apart _).sublist List.filter_sublist
  cases found : avtabMatches h (typeKey source target cls spec) with
  | nil => simp [found] at many
  | cons a rest =>
    rw [found] at apart each many
    cases rest with
    | nil => simp at many
    | cons b rest =>
      have one := each a List.mem_cons_self
      have two := each b (List.mem_cons_of_mem _ List.mem_cons_self)
      exact two.2 ((List.pairwise_cons.mp apart).1 b List.mem_cons_self spec known
        (one.1.symm.trans two.1) one.2)

end Matches

section Conditional

variable {te : Avtab} {image : List CondItems} {conds : List CondNode} {k : AvtabKey} {i j : Nat}

/-- Where a key stands in the lists of a conditional, behind the keys in front. -/
inductive StandsAt (c : CondItems) (front : List AvtabKey) (k : AvtabKey) : Prop
  | inTrue (back : List AvtabKey) (split : c.trueItems.flatten = front ++ k :: back) : StandsAt c front k
  | inFalse (between back : List AvtabKey) (behind : front = c.trueItems.flatten ++ between)
      (split : c.falseItems.flatten = between ++ k :: back) : StandsAt c front k

theorem allKeys_cons (c : CondItems) :
    allKeys (c :: image) = c.trueItems.flatten ++ (c.falseItems.flatten ++ allKeys image) := by
  simp [allKeys, allItems, CondItems.items]

theorem allKeys_append (more : List CondItems) :
    allKeys (image ++ more) = allKeys image ++ allKeys more := by
  simp [allKeys, allItems]

/-- The conditional of a position. -/
theorem exists_cond (found : (allKeys image)[i]? = some k) :
    ∃ before c after front, image = before ++ c :: after ∧
      i = (allKeys before ++ front).length ∧ StandsAt c front k := by
  induction image generalizing i with
  | nil => simp [allKeys, allItems] at found
  | cons c image ih =>
    rw [allKeys_cons] at found
    by_cases first : i < c.trueItems.flatten.length
    · rw [List.getElem?_append_left first] at found
      obtain ⟨_, rfl⟩ := List.getElem?_eq_some_iff.mp found
      refine ⟨[], c, image, c.trueItems.flatten.take i, rfl, ?_, ?_⟩
      · have none : allKeys [] = [] := rfl
        rw [none, List.nil_append, List.length_take]
        omega
      · refine .inTrue (c.trueItems.flatten.drop (i + 1)) ?_
        rw [List.getElem_cons_drop, List.take_append_drop]
    · rw [List.getElem?_append_right (by omega)] at found
      by_cases second : i - c.trueItems.flatten.length < c.falseItems.flatten.length
      · rw [List.getElem?_append_left second] at found
        obtain ⟨_, rfl⟩ := List.getElem?_eq_some_iff.mp found
        refine ⟨[], c, image, c.trueItems.flatten ++
          c.falseItems.flatten.take (i - c.trueItems.flatten.length), rfl, ?_, ?_⟩
        · have none : allKeys [] = [] := rfl
          rw [none, List.nil_append, List.length_append, List.length_take]
          omega
        · refine .inFalse _ (c.falseItems.flatten.drop (i - c.trueItems.flatten.length + 1)) rfl ?_
          rw [List.getElem_cons_drop, List.take_append_drop]
      · rw [List.getElem?_append_right (by omega)] at found
        obtain ⟨before, d, after, front, rfl, place, stands⟩ := ih found
        refine ⟨c :: before, d, after, front, rfl, ?_, stands⟩
        rw [allKeys_cons]
        simp only [List.length_append] at place ⊢
        omega

/-- The keys in front of a position are a prefix of the log. -/
theorem log_prefix {before after : List CondItems} {c : CondItems} {front : List AvtabKey}
    (split : image = before ++ c :: after) (stands : StandsAt c front k) :
    ∃ tail, allKeys image = (allKeys before ++ front) ++ k :: tail := by
  subst split
  rw [allKeys_append, allKeys_cons]
  cases stands with
  | inTrue back split =>
    refine ⟨back ++ (c.falseItems.flatten ++ allKeys after), ?_⟩
    rw [split]
    simp
  | inFalse between back behind split =>
    refine ⟨back ++ allKeys after, ?_⟩
    rw [split, behind]
    simp

/-- A type rule has been accepted behind the keys in front of it. -/
theorem accepted_at (read : CondsRead te image conds) (typed : k.specified &&& avtabType ≠ 0)
    (found : (allKeys image)[i]? = some k) :
    ∃ other, Accepted te ((allKeys image).take i) other k ∧
      ∀ list, other = some list → ∃ before c after node between back,
        image = before ++ c :: after ∧ node ∈ conds ∧ NodeRead te (allKeys before) c node ∧
        list = node.trueList ∧ c.falseItems.flatten = between ++ k :: back ∧
        i = (allKeys before ++ c.trueItems.flatten).length + between.length := by
  obtain ⟨before, c, after, front, split, place, stands⟩ := exists_cond found
  obtain ⟨tail, whole⟩ := log_prefix split stands
  have upTo : (allKeys image).take i = allKeys before ++ front := by
    rw [whole, place, List.take_left]
  obtain ⟨node, member, one⟩ := read.each before c after split
  rw [upTo]
  cases stands with
  | inTrue back inList =>
    refine ⟨none, one.trues front k back inList typed, ?_⟩
    intro list absurdity
    cases absurdity
  | inFalse between back behind inList =>
    refine ⟨some node.trueList, ?_, ?_⟩
    · rw [behind, ← List.append_assoc]
      exact one.falses between k back inList typed
    · intro list same
      cases same
      refine ⟨before, c, after, node, between, back, split, member, one, rfl, inList, ?_⟩
      rw [place, behind]
      simp only [List.length_append]
      omega

/-- Two matches of a type specifier: the second has been accepted with the first as its only twin. -/
theorem second_accepted (read : CondsRead te image conds) {source target cls spec : U16}
    (known : spec ∈ typeSpecs) (below : j < i)
    (first : MatchAt (allKeys image) (typeKey source target cls spec) j)
    (second : MatchAt (allKeys image) (typeKey source target cls spec) i) :
    (∀ l, l < i → MatchAt (allKeys image) (typeKey source target cls spec) l → l = j) ∧
      ∃ before c after node between back k, image = before ++ c :: after ∧ node ∈ conds ∧
        NodeRead te (allKeys before) c node ∧ j ∈ node.trueList ∧
        c.falseItems.flatten = between ++ k :: back ∧
        i = (allKeys before ++ c.trueItems.flatten).length + between.length ∧
        keyCode (typeKey source target cls spec) = keyCode k ∧ k.specified &&& spec ≠ 0 := by
  obtain ⟨k, found, sameKey, hit⟩ := (matchAt_typeKey known).mp second
  obtain ⟨other, accepted, place⟩ := accepted_at read (typed_of_spec known hit) found
  have long : i < (allKeys image).length := (List.getElem?_eq_some_iff.mp found).1
  have earlier : ∀ l, l < i → MatchAt (allKeys image) (typeKey source target cls spec) l →
      MatchAt ((allKeys image).take i) k l := by
    intro l less matched
    obtain ⟨key, there, same, shares⟩ := (matchAt_typeKey known).mp matched
    refine ⟨key, ?_, match_of_shared (sameKey.symm.trans same) known hit shares⟩
    rw [List.getElem?_take_of_lt less]
    exact there
  have atJ := earlier j below first
  refine ⟨fun l less matched => accepted.alone l j (earlier l less matched) atJ, ?_⟩
  obtain ⟨list, same, onList⟩ := accepted.paired j atJ
  obtain ⟨before, c, after, node, between, back, split, member, one, rfl, inList, position⟩ :=
    place list same
  exact ⟨before, c, after, node, between, back, k, split, member, one, onList, inList, position,
    sameKey, hit⟩

end Conditional

/-- One node is on the true list and the other on the false list. -/
def Opposite (node : CondNode) (a b : AvtabNode) : Prop :=
  (a.addr ∈ node.trueList ∧ b.addr ∈ node.falseList) ∨
    (b.addr ∈ node.trueList ∧ a.addr ∈ node.falseList)

instance (node : CondNode) (a b : AvtabNode) : Decidable (Opposite node a b) :=
  inferInstanceAs (Decidable ((a.addr ∈ node.trueList ∧ b.addr ∈ node.falseList) ∨
    (b.addr ∈ node.trueList ∧ a.addr ∈ node.falseList)))

/-- The type rules of a key: in one of the tables, alone or one for each state of a conditional. -/
structure TypeRuleUnique (p : Policydb) (k : AvtabKey) : Prop where
  apart : avtabMatches p.teAvtab k = [] ∨ avtabMatches p.teCondAvtab k = []
  unconditional : (avtabMatches p.teAvtab k).length ≤ 1
  conditional : (avtabMatches p.teCondAvtab k).length ≤ 1 ∨
    ∃ a b, avtabMatches p.teCondAvtab k = [a, b] ∧ ∃ node ∈ p.condList, Opposite node a b

/-- Every rule of a false list that has a twin on the true list is the last one of its item. -/
def TwinsLast (image : List CondItems) : Prop :=
  ∀ c ∈ image, ∀ item ∈ c.falseItems, ∀ k ∈ item.dropLast, ∀ k' ∈ c.trueItems.flatten, ¬ Twin k k'

section Unique

variable {p : Policydb} {image : List CondItems} {source target cls spec : U16} {i j : Nat}

theorem typeMatches_apart (from_image : RulesFrom p image) (te : AvtabOk p.teAvtab)
    (known : spec ∈ typeSpecs) : avtabMatches p.teAvtab (typeKey source target cls spec) = [] ∨
      avtabMatches p.teCondAvtab (typeKey source target cls spec) = [] := by
  by_contra both
  rw [not_or] at both
  obtain ⟨n, inTe⟩ := List.exists_mem_of_ne_nil _ both.1
  obtain ⟨m, inCond⟩ := List.exists_mem_of_ne_nil _ both.2
  obtain ⟨key, found, sameKey, hit⟩ :=
    (matchAt_typeKey known).mp (from_image.logged.matches_iff.mp ⟨m, inCond, rfl⟩)
  obtain ⟨other, accepted, -⟩ := accepted_at from_image.conds (typed_of_spec known hit) found
  obtain ⟨member, same, shares⟩ := (mem_typeMatches te known).mp inTe
  have also : n ∈ avtabMatches p.teAvtab key :=
    (mem_avtabMatches te).mpr
      ⟨member, match_of_shared (sameKey.symm.trans same) known hit shares⟩
  rw [accepted.apart] at also
  cases also

/-- Two matches below a third one are the same. -/
theorem one_below (from_image : RulesFrom p image) (known : spec ∈ typeSpecs) {l : Nat} (il : i < l)
    (jl : j < l) (one : MatchAt (allKeys image) (typeKey source target cls spec) i)
    (two : MatchAt (allKeys image) (typeKey source target cls spec) j)
    (three : MatchAt (allKeys image) (typeKey source target cls spec) l) : i = j :=
  (second_accepted from_image.conds known jl two three).1 i il one

/-- The later of two matches is on the false list opposite to the earlier one. -/
theorem opposite_lists (from_image : RulesFrom p image) (twins : TwinsLast image)
    (known : spec ∈ typeSpecs) (below : j < i)
    (first : MatchAt (allKeys image) (typeKey source target cls spec) j)
    (second : MatchAt (allKeys image) (typeKey source target cls spec) i) :
    ∃ node ∈ p.condList, j ∈ node.trueList ∧ i ∈ node.falseList := by
  obtain ⟨-, before, c, after, node, between, back, k, rfl, member, one, onTrue, inFalse, place,
    sameKey, hit⟩ := second_accepted from_image.conds known below first second
  refine ⟨node, member, onTrue, ?_⟩
  have fullItems : ∀ item ∈ c.trueItems ++ c.falseItems, item ≠ [] := by
    intro item inside
    apply from_image.conds.full item
    simp only [allItems, List.flatMap_append, List.flatMap_cons, List.mem_append]
    exact .inr (.inl inside)
  have atFalse : c.falseItems.flatten[between.length]? = some k := by
    rw [inFalse]
    simp
  obtain ⟨bf, front, rest, af, items, offset⟩ := exists_block atFalse
  have full : ∀ item ∈ c.falseItems, item ≠ [] := fun item inside =>
    fullItems item (List.mem_append_right _ inside)
  have last := mem_ends_iff (n := (allKeys before ++ c.trueItems.flatten).length) full items
  rw [one.falseList, place, offset, ← Nat.add_assoc, last]
  by_contra more
  -- the twin on the true list
  have trueFull : ∀ item ∈ c.trueItems, item ≠ [] := fun item inside =>
    fullItems item (List.mem_append_left _ inside)
  rw [one.trueList] at onTrue
  have bounds := ends_bounds trueFull onTrue
  obtain ⟨key, found, same, shares⟩ := (matchAt_typeKey known).mp first
  have inTrue : key ∈ c.trueItems.flatten := by
    rw [allKeys_append, allKeys_cons, List.getElem?_append_right bounds.1,
      List.getElem?_append_left (by omega)] at found
    exact List.mem_of_getElem? found
  have notLast : k ∈ (front ++ k :: rest).dropLast := by
    rw [List.dropLast_append_of_ne_nil (by simp), List.dropLast_cons_of_ne_nil more]
    simp
  have inside : front ++ k :: rest ∈ c.falseItems := by
    rw [items]
    simp
  exact twins c (by simp) _ inside k notLast key inTrue
    (twin_of_shared (sameKey.symm.trans same) known hit shares)

theorem typeMatches_conditional (from_image : RulesFrom p image) (twins : TwinsLast image)
    (known : spec ∈ typeSpecs) :
    (avtabMatches p.teCondAvtab (typeKey source target cls spec)).length ≤ 1 ∨
      ∃ a b, avtabMatches p.teCondAvtab (typeKey source target cls spec) = [a, b] ∧
        ∃ node ∈ p.condList, Opposite node a b := by
  have matched : ∀ n ∈ avtabMatches p.teCondAvtab (typeKey source target cls spec),
      MatchAt (allKeys image) (typeKey source target cls spec) n.addr :=
    fun n member => from_image.logged.matches_iff.mp ⟨n, member, rfl⟩
  have distinct := from_image.logged.addrs_nodup (k := typeKey source target cls spec)
  cases found : avtabMatches p.teCondAvtab (typeKey source target cls spec) with
  | nil => exact .inl (by simp)
  | cons a rest =>
    cases rest with
    | nil => exact .inl (by simp)
    | cons b rest =>
      right
      rw [found] at matched distinct
      have atA := matched a (by simp)
      have atB := matched b (by simp)
      cases rest with
      | nil =>
        have apart : a.addr ≠ b.addr := by simpa using distinct
        refine ⟨a, b, rfl, ?_⟩
        rcases Nat.lt_or_gt_of_ne apart with below | above
        · obtain ⟨node, member, onTrue, onFalse⟩ := opposite_lists from_image twins known below atA atB
          exact ⟨node, member, .inl ⟨onTrue, onFalse⟩⟩
        · obtain ⟨node, member, onTrue, onFalse⟩ := opposite_lists from_image twins known above atB atA
          exact ⟨node, member, .inr ⟨onTrue, onFalse⟩⟩
      | cons d rest =>
        have atD := matched d (by simp)
        simp only [List.map_cons, List.nodup_cons, List.mem_cons, not_or] at distinct
        obtain ⟨⟨ab, ad, -⟩, ⟨bd, -⟩, -⟩ := distinct
        have greatest : (a.addr < d.addr ∧ b.addr < d.addr) ∨ (a.addr < b.addr ∧ d.addr < b.addr) ∨
            (b.addr < a.addr ∧ d.addr < a.addr) := by omega
        rcases greatest with ⟨ad', bd'⟩ | ⟨ab', db'⟩ | ⟨ba', da'⟩
        · exact absurd (one_below from_image known ad' bd' atA atB atD) ab
        · exact absurd (one_below from_image known ab' db' atA atD atB) ad
        · exact absurd (one_below from_image known ba' da' atB atD atA) bd

theorem typeRules_unique (from_image : RulesFrom p image) (te : RulesApart p.teAvtab)
    (twins : TwinsLast image) (known : spec ∈ typeSpecs) :
    TypeRuleUnique p (typeKey source target cls spec) := by
  constructor
  · exact typeMatches_apart from_image te.ok known
  · exact typeMatches_one te known
  · exact typeMatches_conditional from_image twins known

/-- A rule that is not the last one of its item is on no list. -/
theorem unlisted_rule (from_image : RulesFrom p image) {before after : List CondItems} {c : CondItems}
    {bf af : List (List AvtabKey)} {front back : List AvtabKey} {k : AvtabKey}
    (split : image = before ++ c :: after)
    (items : c.falseItems = bf ++ (front ++ k :: back) :: af) (more : back ≠ []) :
    (allKeys before ++ c.trueItems.flatten).length + bf.flatten.length + front.length ∉
      listed p.condList := by
  rw [from_image.conds.listed]
  have whole : allItems image = (allItems before ++ c.trueItems ++ bf) ++ (front ++ k :: back) ::
      (af ++ allItems after) := by
    rw [split]
    simp [allItems, CondItems.items, items]
  have last := mem_ends_iff (n := 0) from_image.conds.full whole
  have offset : (allKeys before ++ c.trueItems.flatten).length + bf.flatten.length + front.length =
      0 + (allItems before ++ c.trueItems ++ bf).flatten.length + front.length := by
    simp only [allKeys, List.flatten_append, List.length_append]
    omega
  rw [offset, last]
  exact more

theorem twinsLast_of_unique (from_image : RulesFrom p image)
    (unique : ∀ source target cls, ∀ spec ∈ typeSpecs, TypeRuleUnique p (typeKey source target cls spec)) :
    TwinsLast image := by
  intro c inImage item inFalse k notLast k' inTrue twin
  obtain ⟨sameKey, spec, known, here, there⟩ := shared_of_twin twin
  obtain ⟨before, after, split⟩ := List.append_of_mem inImage
  obtain ⟨bf, af, items⟩ := List.append_of_mem inFalse
  -- the two rules by their places
  obtain ⟨front, back, more, rfl⟩ : ∃ front back, back ≠ [] ∧ item = front ++ k :: back := by
    obtain ⟨front, middle, parts⟩ := List.append_of_mem notLast
    have nonempty : item ≠ [] := by
      rintro rfl
      simp at notLast
    refine ⟨front, middle ++ [item.getLast nonempty], by simp, ?_⟩
    calc
      item = item.dropLast ++ [item.getLast nonempty] := (List.dropLast_append_getLast nonempty).symm
      _ = front ++ k :: (middle ++ [item.getLast nonempty]) := by
        rw [parts]
        simp
  obtain ⟨j, below, found⟩ := List.mem_iff_getElem.mp inTrue
  have unlisted := unlisted_rule from_image split items more
  have atK : (allKeys image)[(allKeys before ++ c.trueItems.flatten).length + bf.flatten.length +
      front.length]? = some k := by
    rw [split, allKeys_append, allKeys_cons, items]
    simp only [List.flatten_append, List.flatten_cons, List.length_append]
    rw [List.getElem?_append_right (by omega), List.getElem?_append_right (by omega)]
    simp only [List.append_assoc]
    rw [List.getElem?_append_right (by omega), List.getElem?_append_right (by omega)]
    have first : (allKeys before).length + c.trueItems.flatten.length + bf.flatten.length + front.length -
        (allKeys before).length - c.trueItems.flatten.length - bf.flatten.length - front.length = 0 := by
      omega
    rw [first]
    rfl
  have atK' : (allKeys image)[(allKeys before).length + j]? = some k' := by
    rw [split, allKeys_append, allKeys_cons, List.getElem?_append_right (by omega),
      Nat.add_sub_cancel_left, List.getElem?_append_left below, List.getElem?_eq_getElem below, found]
  have codes : keyCode (typeKey k.sourceType k.targetType k.targetClass spec) = keyCode k := rfl
  have matchK := (matchAt_typeKey known).mpr ⟨k, atK, codes, here⟩
  have matchK' := (matchAt_typeKey known).mpr ⟨k', atK', codes.trans sameKey, there⟩
  obtain ⟨a, inMatches, atA⟩ := from_image.logged.matches_iff.mpr matchK
  obtain ⟨b, alsoMatches, atB⟩ := from_image.logged.matches_iff.mpr matchK'
  have different : a ≠ b := by
    rintro rfl
    rw [atA, List.length_append] at atB
    omega
  rcases (unique k.sourceType k.targetType k.targetClass spec known).conditional with
    single | ⟨x, y, pair, node, member, opposite⟩
  · obtain ⟨x, only⟩ := List.length_eq_one_iff.mp
      (le_antisymm single (List.length_pos_of_mem inMatches))
    rw [only, List.mem_singleton] at inMatches alsoMatches
    exact different (inMatches.trans alsoMatches.symm)
  · apply unlisted
    rw [← atA]
    have onLists : x.addr ∈ listed p.condList ∧ y.addr ∈ listed p.condList := by
      simp only [listed, List.mem_flatMap, List.mem_append]
      rcases opposite with ⟨onTrue, onFalse⟩ | ⟨onTrue, onFalse⟩
      · exact ⟨⟨node, member, .inl onTrue⟩, ⟨node, member, .inr onFalse⟩⟩
      · exact ⟨⟨node, member, .inr onFalse⟩, ⟨node, member, .inl onTrue⟩⟩
    rw [pair, List.mem_cons, List.mem_singleton] at inMatches
    rcases inMatches with rfl | rfl
    · exact onLists.1
    · exact onLists.2

theorem twinsLast_of_singles (singles : ∀ item ∈ allItems image, item.length = 1) : TwinsLast image := by
  intro c inImage item inFalse k notLast
  have one : item.length = 1 := by
    apply singles
    simp only [allItems, CondItems.items, List.mem_flatMap, List.mem_append]
    exact ⟨c, inImage, .inr inFalse⟩
  obtain ⟨only, rfl⟩ := List.length_eq_one_iff.mp one
  cases notLast

/-- For every accepted image, the type rules of every key are unique if and only if each rule of a
false list with a twin on the true list is the last one of its item, as it always is from
`POLICYDB_VERSION_AVTAB` on. -/
theorem type_rules_unique {bytes rest : List U8} (read : policydbRead bytes = .ok (p, rest)) :
    ∃ image more, imageConds bytes = .ok (image, more) ∧
      ((∀ source target cls, ∀ spec ∈ typeSpecs, TypeRuleUnique p (typeKey source target cls spec)) ↔
        TwinsLast image) ∧
      (policydbVersionAvtab ≤ p.policyvers → TwinsLast image) := by
  obtain ⟨image, more, same, from_image⟩ := policydbRead_from read
  obtain ⟨p₁, _, _, rules, -⟩ := (policydbRead_stages read).1.rules
  refine ⟨image, more, same, ⟨twinsLast_of_unique from_image, fun twins source target cls spec known => ?_⟩,
    fun new => twinsLast_of_singles (from_image.singles new)⟩
  exact typeRules_unique from_image (avtabRead_apart rules) twins known

/-- A transition rule on the true list; on the false list one item that is another transition and a
change rule. -/
def twinImage : PolicyImage :=
  oldImage [oldItemBytes 2 2 1 1 [1]]
    [condBytes 0 [(1, 1)] [oldItemBytes 1 1 1 0x10 [1]] [oldItemBytes 1 1 1 0x50 [2, 1]]]

theorem type_rules_unique_twin :
    ∃ p rest, policydbRead twinImage.bytes = .ok (p, rest) ∧
      ∃ image more, imageConds twinImage.bytes = .ok (image, more) ∧
        ((∀ source target cls, ∀ spec ∈ typeSpecs, TypeRuleUnique p (typeKey source target cls spec)) ↔
          TwinsLast image) ∧
        (policydbVersionAvtab ≤ p.policyvers → TwinsLast image) := by
  have accepted : twinImage.accepts (fun _ => true) = true := by decide +kernel
  obtain ⟨p, rest, read, -⟩ := PolicyImage.accepts_iff.mp accepted
  exact ⟨p, rest, read, type_rules_unique read⟩

/-- Two transition rules, on no two lists of a conditional. -/
theorem two_transitions :
    ∃ p rest, policydbRead twinImage.bytes = .ok (p, rest) ∧
      ¬ TypeRuleUnique p (typeKey 1 1 1 avtabTransition) := by
  have accepted : twinImage.accepts (fun p =>
      decide (1 < (avtabMatches p.teCondAvtab (typeKey 1 1 1 avtabTransition)).length) &&
        p.condList.all fun node =>
          (avtabMatches p.teCondAvtab (typeKey 1 1 1 avtabTransition)).all fun a =>
            (avtabMatches p.teCondAvtab (typeKey 1 1 1 avtabTransition)).all fun b =>
              !decide (Opposite node a b)) = true := by
    decide +kernel
  obtain ⟨p, rest, read, test⟩ := PolicyImage.accepts_iff.mp accepted
  simp only [Bool.and_eq_true, decide_eq_true_eq, List.all_eq_true, Bool.not_eq_true',
    decide_eq_false_iff_not] at test
  refine ⟨p, rest, read, fun unique => ?_⟩
  rcases unique.conditional with single | ⟨a, b, pair, node, member, opposite⟩
  · omega
  · rw [pair] at test
    exact test.2 node member a List.mem_cons_self b (List.mem_cons_of_mem _ List.mem_cons_self) opposite

end Unique

end Ksrc.Guarantees.TypeRules

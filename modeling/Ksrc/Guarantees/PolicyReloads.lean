import Ksrc.Guarantees.PolicyFiles
import Ksrc.Guarantees.TypeRules
import Ksrc.Source.ComputeSid

/-!
# The answers of a policy that is loaded again

Source: `security/selinux/ss/services.c` (`context_struct_compute_av`, `security_compute_av`,
`security_compute_xperms_decision`, `services_compute_xperms_drivers`, `services_compute_xperms_decision`,
`security_compute_sid`), `policydb.c` (`policydb_read`, `policydb_write`).

The rules of a key can come back in another order. The loops over them gather bits in any order, and no key
has two type rules outside of the conditionals.
-/
namespace Ksrc.Guarantees.PolicyReloads

open Library Source AvRules AvRuleSets ContextFiles
  EbitmapBits GenfsLabels PoliciesInForce PolicyFiles PolicyImages
  RuleFiles SymbolFiles SymtabFiles TypeRules XpermDecisions

section Maps

variable {m : Option ExtendedPermsData}

theorem words_comm {w : Nat} (x y z : BitVec w) : x ||| y ||| z = x ||| z ||| y := by
  rw [BitVec.or_assoc, BitVec.or_comm y, ← BitVec.or_assoc]

theorem masks_comm (x y z : U32) : x &&& y &&& z = x &&& z &&& y := by
  rw [BitVec.and_assoc, BitVec.and_comm y, ← BitVec.and_assoc]

theorem or_comm (a b c : ExtendedPermsData) : (a.or b).or c = (a.or c).or b := by
  unfold ExtendedPermsData.or
  refine congrArg ExtendedPermsData.mk (Vector.ext fun i inside => ?_)
  simp only [Vector.getElem_zipWith]
  exact words_comm _ _ _

theorem ones_or (a : ExtendedPermsData) : ExtendedPermsData.ones.or a = .ones := by
  unfold ExtendedPermsData.or ExtendedPermsData.ones
  refine congrArg ExtendedPermsData.mk (Vector.ext fun i inside => ?_)
  simp only [Vector.getElem_zipWith, Vector.getElem_replicate]
  exact BitVec.allOnes_or

theorem or_zero (a : ExtendedPermsData) : a.or .zero = a := by
  unfold ExtendedPermsData.or ExtendedPermsData.zero
  refine congrArg ExtendedPermsData.mk (Vector.ext fun i inside => ?_)
  simp only [Vector.getElem_zipWith, Vector.getElem_replicate]
  exact BitVec.or_zero

/-- Setting a bit is the union with a map of that bit. -/
theorem xpermSet_or (a : ExtendedPermsData) (x : U8) :
    securityXpermSet a x = a.or (securityXpermSet .zero x) := by
  unfold securityXpermSet ExtendedPermsData.or ExtendedPermsData.zero
  refine congrArg ExtendedPermsData.mk (Vector.ext fun i inside => ?_)
  simp only [Vector.getElem_zipWith, Vector.getElem_set, Vector.getElem_replicate]
  split
  · rename_i here
    subst here
    exact congrArg (a.p[(x >>> 5).toNat] ||| ·) BitVec.zero_or.symm
  · exact BitVec.or_zero.symm

theorem xpermsMap_comm (x y : AvtabExtendedPerms) : xpermsMap x (xpermsMap y m) = xpermsMap y (xpermsMap x m) := by
  cases m with
  | none => unfold xpermsMap; split_ifs <;> rfl
  | some a =>
    unfold xpermsMap
    split_ifs <;> simp only [Option.map_some, ones_or, or_comm]

end Maps

section Nodes

variable (a b : AvtabNode)

/-- The drivers that an extended rule names. -/
def driversOf (x : AvtabExtendedPerms) : ExtendedPermsData :=
  if x.specified = avtabXpermsIoctldriver then x.perms
  else if x.specified = avtabXpermsIoctlfunction then securityXpermSet .zero x.driver
  else .zero

theorem drivers_or {x : AvtabExtendedPerms} (extended : a.datum = .xperms x) (xperms : ExtendedPerms) :
    servicesComputeXpermsDrivers xperms a = { len := 1, drivers := xperms.drivers.or (driversOf x) } := by
  unfold servicesComputeXpermsDrivers driversOf
  rw [extended]
  dsimp only
  split_ifs
  · rfl
  · rw [xpermSet_or]
  · rw [or_zero]

theorem drivers_comm (xperms : ExtendedPerms) :
    servicesComputeXpermsDrivers (servicesComputeXpermsDrivers xperms a) b =
      servicesComputeXpermsDrivers (servicesComputeXpermsDrivers xperms b) a := by
  cases here : a.datum with
  | data _ => simp only [servicesComputeXpermsDrivers, here]
  | xperms x =>
    cases there : b.datum with
    | data _ => simp only [servicesComputeXpermsDrivers, there]
    | xperms y => simp only [drivers_or a here, drivers_or b there, or_comm]

/-- Two steps that commute still do so behind their tests. -/
theorem tested_comm {σ α : Type} (f : σ → α → σ) {y z : α} (comm : ∀ x, f (f x y) z = f (f x z) y)
    (P Q : Prop) [Decidable P] [Decidable Q] (x : σ) :
    (if Q then f (if P then f x y else x) z else if P then f x y else x) =
      if P then f (if Q then f x z else x) y else if Q then f x z else x := by
  split_ifs
  · exact comm x
  · rfl
  · rfl
  · rfl

/-- The vectors after a node of `te_avtab`. -/
theorem computeAvNode_fst (acc : AvDecision × Option ExtendedPerms) (n : AvtabNode) :
    (computeAvNode acc n).1 =
      { acc.1 with
        allowed := if n.key.specified = avtabAllowed then acc.1.allowed ||| n.datum.u else acc.1.allowed
        auditallow :=
          if n.key.specified = avtabAuditallow then acc.1.auditallow ||| n.datum.u else acc.1.auditallow
        auditdeny :=
          if n.key.specified = avtabAuditdeny then acc.1.auditdeny &&& n.datum.u else acc.1.auditdeny } := by
  unfold computeAvNode
  dsimp only
  split
  · rename_i specified
    rw [specified, if_neg (by decide), if_neg (by decide)]
  · split
    · rename_i specified
      rw [specified, if_neg (by decide)]
    · split
      · rfl
      · split
        · rfl
        · rfl

theorem computeAvNode_comm (acc : AvDecision × Option ExtendedPerms) :
    computeAvNode (computeAvNode acc a) b = computeAvNode (computeAvNode acc b) a := by
  refine Prod.ext ?_ ?_
  · simp only [computeAvNode_fst]
    congr 1
    · exact tested_comm (· ||| ·) (fun x => words_comm x _ _) _ _ _
    · exact tested_comm (· ||| ·) (fun x => words_comm x _ _) _ _ _
    · exact tested_comm (· &&& ·) (fun x => masks_comm x _ _) _ _ _
  · simp only [computeAvNode_snd]
    refine tested_comm
      (fun (xperms : Option ExtendedPerms) n => xperms.map (servicesComputeXpermsDrivers · n)) ?_ _ _ _
    intro xperms
    cases xperms with
    | none => rfl
    | some xperms => exact congrArg some (drivers_comm a b xperms)

/-- A rule does the same to every decision of one driver. -/
theorem decision_driver (n : AvtabNode) (driver : U8) :
    (∃ (use : XpermUse) (x : AvtabExtendedPerms), ∀ d : ExtendedPermsDecision, d.driver = driver →
      servicesComputeXpermsDecision d n = use.add x d) ∨
    ∀ d : ExtendedPermsDecision, d.driver = driver → servicesComputeXpermsDecision d n = d := by
  by_cases counts : ∃ (use : XpermUse) (x : AvtabExtendedPerms), n.key.specified = use.code ∧
      n.datum = .xperms x ∧ xpermsApplies x driver = true
  · obtain ⟨use, x, bare, extended, applies⟩ := counts
    refine .inl ⟨use, x, fun d same => ?_⟩
    rcases decision_cases d n with ⟨use', x', bare', extended', -, added⟩ | ⟨-, silent⟩
    · cases extended.symm.trans extended'
      cases code_inj.mp (bare.symm.trans bare')
      exact added
    · rw [← same, silent use x bare extended] at applies
      cases applies
  · refine .inr fun d same => ?_
    rcases decision_cases d n with ⟨use, x, bare, extended, applies, -⟩ | ⟨kept, -⟩
    · exact absurd ⟨use, x, bare, extended, same ▸ applies⟩ counts
    · exact kept

theorem decision_ext {d d' : ExtendedPermsDecision} (used : d.used = d'.used) (driver : d.driver = d'.driver)
    (maps : ∀ use : XpermUse, use.map d = use.map d') : d = d' := by
  obtain ⟨used', driver', allowed, auditallow, dontaudit⟩ := d
  cases used
  cases driver
  cases maps .allowed
  cases maps .auditallow
  cases maps .dontaudit
  rfl

theorem add_comm (use use' : XpermUse) (x y : AvtabExtendedPerms) (d : ExtendedPermsDecision) :
    use.add x (use'.add y d) = use'.add y (use.add x d) := by
  apply decision_ext
  · rw [add_used, add_used, add_used, add_used]
    exact words_comm _ _ _
  · rw [add_driver, add_driver, add_driver, add_driver]
  · intro shown
    rw [add_map, add_map, add_map, add_map]
    split_ifs
    · exact xpermsMap_comm x y
    · rfl
    · rfl
    · rfl

theorem decision_comm (xpermd : ExtendedPermsDecision) :
    servicesComputeXpermsDecision (servicesComputeXpermsDecision xpermd a) b =
      servicesComputeXpermsDecision (servicesComputeXpermsDecision xpermd b) a := by
  rcases decision_driver a xpermd.driver with ⟨use, x, first⟩ | first
  · rcases decision_driver b xpermd.driver with ⟨use', y, second⟩ | second
    · rw [first _ rfl, second _ rfl, second _ (add_driver use), first _ (add_driver use')]
      exact add_comm use' use y x xpermd
    · rw [first _ rfl, second _ rfl, second _ (add_driver use), first _ rfl]
  · rcases decision_driver b xpermd.driver with ⟨use', y, second⟩ | second
    · rw [first _ rfl, second _ rfl, first _ (add_driver use')]
    · rw [first _ rfl, second _ rfl, first _ rfl]

/-- A loop whose steps see the rule of a node only and commute. -/
theorem foldl_rules {σ : Type} {f : σ → AvtabNode → σ} {l l' : List AvtabNode}
    (sees : ∀ s n, f s n = f s { addr := 0, key := (rule n).1, datum := (rule n).2 })
    (comm : ∀ s n n', f (f s n) n' = f (f s n') n) (perm : (l'.map rule).Perm (l.map rule)) (s : σ) :
    l'.foldl f s = l.foldl f s := by
  have folded (l : List AvtabNode) :
      l.foldl f s = (l.map rule).foldl (fun s r => f s { addr := 0, key := r.1, datum := r.2 }) s := by
    rw [List.foldl_map]
    exact congrArg (fun g => l.foldl g s) (funext fun s => funext fun n => sees s n)
  rw [folded, folded]
  exact perm.foldl_eq' (fun _ _ _ _ _ => comm _ _ _) s

end Nodes

section Decisions

variable {p : Policydb} {again : Avtab} {scontext tcontext : Context} {tclass spec : U16}

/-- The policy with the table of its unconditional rules read again. -/
def readAgain (p : Policydb) (again : Avtab) : Policydb := { p with teAvtab := again }

theorem printing_again : contextStructToStringReads (readAgain p again) = contextStructToStringReads p := by
  have cats : mlsSidToContextCatsReads (readAgain p again) = mlsSidToContextCatsReads p := by
    funext bits
    induction bits with
    | nil => rfl
    | cons i rest ih =>
      funext head prev
      unfold mlsSidToContextCatsReads
      rw [ih]
      rfl
  have lens : mlsComputeCatsLenReads (readAgain p again) = mlsComputeCatsLenReads p := by
    funext bits
    induction bits with
    | nil => rfl
    | cons i rest ih =>
      funext head prev
      unfold mlsComputeCatsLenReads
      rw [ih]
      rfl
  have levels : mlsSidToContextLevelReads (readAgain p again) = mlsSidToContextLevelReads p := by
    unfold mlsSidToContextLevelReads
    rw [cats]
    rfl
  have levelLens : mlsComputeLevelLenReads (readAgain p again) = mlsComputeLevelLenReads p := by
    unfold mlsComputeLevelLenReads
    rw [lens]
    rfl
  have texts : mlsSidToContextReads (readAgain p again) = mlsSidToContextReads p := by
    unfold mlsSidToContextReads
    rw [levels]
    rfl
  have textLens : mlsComputeContextLenReads (readAgain p again) = mlsComputeContextLenReads p := by
    unfold mlsComputeContextLenReads
    rw [levelLens]
    rfl
  unfold contextStructToStringReads
  rw [texts, textLens]
  rfl

section Rules

variable (same : SameRuleTables p.teAvtab again)

include same

theorem computeAvRules_again (sattr tattr : Ebitmap) (acc : AvDecision × Option ExtendedPerms) :
    computeAvRules (readAgain p again) tclass sattr tattr acc = computeAvRules p tclass sattr tattr acc := by
  have pair (i j : U32) (acc : AvDecision × Option ExtendedPerms) :
      computeAvPair (readAgain p again) tclass i j acc = computeAvPair p tclass i j acc :=
    congrArg (condComputeAv p.teCondAvtab _)
      (foldl_rules (fun _ _ => rfl) (fun s n n' => computeAvNode_comm n n' s) (same.rules _) acc)
  unfold computeAvRules
  simp only [pair]

theorem computeXpermsPair_again (i j : U32) (xpermd : ExtendedPermsDecision) :
    computeXpermsPair (readAgain p again) tclass i j xpermd = computeXpermsPair p tclass i j xpermd :=
  congrArg (condComputeXperms p.teCondAvtab _)
    (foldl_rules (fun _ _ => rfl) (fun s n n' => decision_comm n n' s) (same.rules _) xpermd)

theorem computeAvUnbounded_again (acc : AvDecision × Option ExtendedPerms) :
    computeAvUnbounded (readAgain p again) scontext tcontext tclass acc =
      computeAvUnbounded p scontext tcontext tclass acc := by
  have constraints (list : List ConstraintNode) (allowed : U32) :
      computeAvConstraints (readAgain p again) scontext tcontext list allowed =
        computeAvConstraints p scontext tcontext list allowed :=
    computeAvConstraints_withRules (p := p) (a := again) (b := p.teCondAvtab) (l := p.condList) list allowed
  unfold computeAvUnbounded
  simp only [constraints, computeAvRules_again same]
  rfl

theorem contextStructComputeAv_again (depth : Nat) (avd : AvDecision) (xperms : Option ExtendedPerms) :
    contextStructComputeAvDepth (readAgain p again) depth scontext tcontext tclass avd xperms =
      contextStructComputeAvDepth p depth scontext tcontext tclass avd xperms := by
  have bounding : boundingContexts (readAgain p again) = boundingContexts p := rfl
  have classes : (readAgain p again).pClasses = p.pClasses := rfl
  induction depth generalizing scontext tcontext avd xperms with
  | zero => rfl
  | succ depth ih =>
    unfold contextStructComputeAvDepth
    simp only [computeAvUnbounded_again same, bounding, classes, ih]

/-- The only type rule of a key is found again. -/
theorem typeRule_again (apart : RulesApart p.teAvtab) (known : spec ∈ typeSpecs) :
    (typeRule (readAgain p again) scontext tcontext tclass spec).map rule =
      (typeRule p scontext tcontext tclass spec).map rule := by
  have perm := same.rules (sidKey scontext tcontext tclass spec)
  have one : (avtabMatches p.teAvtab (sidKey scontext tcontext tclass spec)).length ≤ 1 :=
    typeMatches_one apart known
  have found := same.found (sidKey scontext tcontext tclass spec)
  have table : (readAgain p again).teAvtab = again := rfl
  unfold typeRule
  rw [table]
  cases before : avtabSearchNode p.teAvtab (sidKey scontext tcontext tclass spec) with
  | none =>
    cases after : avtabSearchNode again (sidKey scontext tcontext tclass spec) with
    | none => rfl
    | some pair =>
      rw [before, after] at found
      cases found
  | some pair =>
    cases after : avtabSearchNode again (sidKey scontext tcontext tclass spec) with
    | none =>
      rw [before, after] at found
      cases found
    | some pair' =>
      obtain ⟨node, next⟩ := pair
      obtain ⟨node', next'⟩ := pair'
      obtain ⟨more, all, -⟩ := RuleLog.avtabSearchNode_some before
      obtain ⟨more', all', -⟩ := RuleLog.avtabSearchNode_some after
      have none : more = [] := by
        rw [all, List.length_cons] at one
        exact List.length_eq_zero_iff.mp (by omega)
      rw [all, all', none] at perm
      have only := List.perm_singleton.mp perm
      rw [List.map_cons] at only
      exact congrArg some (List.cons.inj only).1

theorem computeSid_again (apart : RulesApart p.teAvtab) (m : ClassMap) (q : SidQuery) (enforcing : Bool) :
    securityComputeSidReads (readAgain p again) scontext tcontext m q enforcing =
      securityComputeSidReads p scontext tcontext m q enforcing := by
  have known : q.specified ∈ typeSpecs := by cases q <;> simp [SidQuery.specified, typeSpecs]
  have rules := congrArg (Option.map fun r : Rule => r.2.u)
    (@typeRule_again p again scontext tcontext (m.tclass q) q.specified same apart known)
  rw [Option.map_map, Option.map_map] at rules
  have names : filenameComputeType (readAgain p again) = filenameComputeType p := rfl
  have types (objname : Option Name) :
      ruleType (readAgain p again) scontext tcontext (m.tclass q) q.specified objname =
        ruleType p scontext tcontext (m.tclass q) q.specified objname := by
    unfold ruleType
    rw [names]
    cases objname.bind (filenameComputeType p scontext tcontext (m.tclass q)) with
    | some otype => rfl
    | none => exact rules
  have invalid :
      computeSidHandleInvalidContextReads (readAgain p again) = computeSidHandleInvalidContextReads p := by
    unfold computeSidHandleInvalidContextReads
    rw [printing_again]
    rfl
  unfold securityComputeSidReads
  dsimp only
  rw [types, invalid]
  rfl

end Rules

/-- The answers to the requests are the same. -/
structure SameAnswers (policy policy' : SelinuxPolicy) : Prop where
  av : ∀ ssid tsid tclass,
    securityComputeAv (some policy') ssid tsid tclass = securityComputeAv (some policy) ssid tsid tclass
  xperms : ∀ ssid tsid tclass driver, securityComputeXpermsDecision (some policy') ssid tsid tclass driver =
    securityComputeXpermsDecision (some policy) ssid tsid tclass driver
  sid : ∀ scontext tcontext m q enforcing,
    securityComputeSidReads policy'.policydb scontext tcontext m q enforcing =
      securityComputeSidReads policy.policydb scontext tcontext m q enforcing

theorem answers_again {policy : SelinuxPolicy} (same : SameRuleTables policy.policydb.teAvtab again)
    (apart : RulesApart policy.policydb.teAvtab) :
    SameAnswers policy { policy with policydb := readAgain policy.policydb again } := by
  have decided :
      contextStructComputeAv (readAgain policy.policydb again) = contextStructComputeAv policy.policydb := by
    funext scontext tcontext tclass avd xperms
    exact contextStructComputeAv_again same _ avd xperms
  refine ⟨fun ssid tsid tclass => ?_, fun ssid tsid tclass driver => ?_, fun _ _ m q enforcing => ?_⟩
  · unfold securityComputeAv
    simp only [decided]
    rfl
  · unfold securityComputeXpermsDecision
    simp only [computeXpermsPair_again same]
    rfl
  · exact computeSid_again same apart m q enforcing

end Decisions

section Files

variable {p : Policydb} {labelled : Vector (List Ocontext) 9} {labelledGenfs : List Genfs}

/-- The SIDs that lookups left in a policy are not written. -/
theorem policydbWrite_cached (inForce : InForce p) (newer : policydbVersionAvtab ≤ p.policyvers)
    (contexts : ∀ i, (labelled.getD i []).map (withoutCached i) = (p.ocontexts.getD i []).map (withoutCached i))
    (genfs : labelledGenfs.map withoutSids = p.genfs.map withoutSids) :
    policydbWrite { p with ocontexts := labelled, genfs := labelledGenfs } = policydbWrite p := by
  obtain ⟨info, compat⟩ := inForce_compat inForce
  have ocontexts :
      ocontextWrite { p with ocontexts := labelled, genfs := labelledGenfs } info = ocontextWrite p info :=
    ocontextWriteFrom_cached contexts
  have types : genfsWrite { p with ocontexts := labelled, genfs := labelledGenfs } = genfsWrite p :=
    genfsWrite_cached genfs
  rw [policydbWrite_new newer compat,
    policydbWrite_new (p := { p with ocontexts := labelled, genfs := labelledGenfs }) newer compat, ocontexts, types]
  rfl

theorem single_stored {b : Nat} (small : b < 2 ^ 20) : BitmapStored (ebitmapSetBit ebitmapInit b true) := by
  have room : b < 2 ^ 32 - ebitmapSize := by
    unfold ebitmapSize
    omega
  obtain ⟨made, bits⟩ := setBit_canonical init_canonical (EbitmapSets.room_of_small room)
  refine ⟨made, fun x inside => ?_⟩
  rcases (bits x).mp inside with rfl | none
  · unfold ebitmapSize
    omega
  · exact absurd none init_bits

/-- A plain rule, two extended rules of one key, and a transition. -/
def reloadImage : PolicyImage :=
  { smallImage with
    rules := counted [ruleBytes 2 2 1 1 1, xpermsBytes 2 2 1 0x100 1 7 8, xpermsBytes 2 2 1 0x100 2 0 9,
      ruleBytes 1 2 1 0x10 2] }

def reloadPlain (p : Policydb) : Bool :=
  p.policyvers == 33 && p.policycaps == ebitmapInit && p.permissiveMap == ebitmapInit && plainTables p &&
    (p.teAvtab.nodes.all fun n => specOrder.contains (avtabSpecified n.key.specified)) &&
    p.filenameTrans.entries.isEmpty && p.ocontexts.toList.all List.isEmpty && p.genfs.isEmpty &&
    p.rangeTr.entries.isEmpty && p.teAvtab.nel == 4 &&
    p.typeAttrMapArray.all fun e => e == ebitmapSetBit ebitmapInit 0 true || e == ebitmapSetBit ebitmapInit 1 true

theorem reload_loaded : ∃ p, InForce p ∧ PolicyOrdinary p ∧ p.teAvtab.nel = 4 := by
  have accepted : reloadImage.accepts reloadPlain = true := by decide +kernel
  obtain ⟨p, _, read, test⟩ := PolicyImage.accepts_iff.mp accepted
  simp only [reloadPlain, Bool.and_eq_true, beq_iff_eq, List.all_eq_true, List.isEmpty_iff, Bool.or_eq_true,
    List.contains_iff_mem] at test
  obtain ⟨⟨⟨⟨⟨⟨⟨⟨⟨⟨vers, caps⟩, permissive⟩, tables⟩, known⟩, names⟩, contexts⟩, genfs⟩, ranges⟩, four⟩,
    attrs⟩ := test
  have inForce : InForce p := .loaded read
  have newer : policydbVersionAvtab ≤ p.policyvers := by
    rw [vers]
    decide
  obtain ⟨_, _, rules⟩ := (inForce_facts inForce).rules
  obtain ⟨-, _, -, -, orderly, -⟩ := avtab_file newer rules
  refine ⟨p, inForce, ⟨newer, empty_bitmap caps, empty_bitmap permissive, plainTables_ordinary tables, orderly known,
    .inr ⟨by rw [vers]; decide, fun i => ⟨0, fun e member _ => ?_⟩, by simp [names]⟩, fun i c member => ?_,
    by simp [genfs], by simp [ranges], fun e member => ?_⟩, four⟩
  · rw [names] at member
    cases member
  · rw [vector_getD] at member
    cases listed : p.ocontexts[i]? with
    | none =>
      rw [listed] at member
      cases member
    | some list =>
      obtain ⟨inside, here⟩ := Vector.getElem?_eq_some_iff.mp listed
      have empty := contexts list (Vector.mem_toList_iff.mpr (here ▸ Vector.getElem_mem inside))
      rw [listed, Option.getD_some, empty] at member
      cases member
  · rcases attrs e member with rfl | rfl
    · exact single_stored (by decide)
    · exact single_stored (by decide)

end Files

end Ksrc.Guarantees.PolicyReloads

import Ksrc.Source.SelinuxMapping
import Ksrc.Guarantees.PolicydbArrays
import Ksrc.Guarantees.PolicyImages
import Ksrc.Guarantees.SymbolTables

/-!
# The values of permissions

Source: `security/selinux/ss/policydb.c` (`perm_read`, `common_read`, `class_read`,
`string_to_av_perm`), `services.c` (`selinux_set_mapping`, `dump_masked_av_helper`).

`perm_read` takes the value of a permission as it is. It is a shift amount in `string_to_av_perm`
and an index in `dump_masked_av_helper`.
-/
namespace Ksrc.Guarantees.PermissionValues

open Library Source PolicydbStages PolicydbArrays
  PolicyImages SymbolTables

section Images

/-- A common of an image: its name and the value words of its permissions. -/
structure ImageCommon where
  name : Name
  values : List U32
  deriving DecidableEq, Repr

/-- A class of an image: the name of its common and the value words of its own permissions. -/
structure ImageClass where
  comkey : Option Name
  own : List U32
  deriving DecidableEq, Repr

/-- The value words of permissions in a row. -/
def readValues (nel : U32) : PolicyReader (List U32) := do
  let perms ← ByteReader.several permReadDatum nel.toNat
  pure (perms.map fun perm => perm.2.value)

def readImageCommon : PolicyReader ImageCommon := do
  let len ← nextU32
  let _ ← nextU32
  let _ ← nextU32
  let nel ← nextU32
  let name ← strRead len
  let values ← readValues nel
  pure { name, values }

/-- The name of the common of a class. -/
def readComkey (len2 : U32) : PolicyReader (Option Name) :=
  if len2 = 0 then pure none
  else do
    let comkey ← strRead len2
    pure (some comkey)

def readImageClass (vers : U32) : PolicyReader ImageClass := do
  let len ← nextU32
  let len2 ← nextU32
  let _ ← nextU32
  let _ ← nextU32
  let nel ← nextU32
  let ncons ← nextU32
  let _ ← strRead len
  let comkey ← readComkey len2
  let own ← readValues nel
  let _ ← readConsHelper vers ncons false
  let _ ← classReadValidatetrans vers
  let _ ← classReadDefaults vers
  let _ ← classReadDefaultType vers
  pure { comkey, own }

/-- The value words of the permissions that a class inherits and owns. -/
def ImageClass.families (c : ImageClass) (commons : List ImageCommon) : List (List U32) :=
  match c.comkey with
  | none => [c.own]
  | some name => (commons.filter fun com => com.name = name).map fun com => com.values ++ c.own

/-- The value words of the permissions of each class of an image. -/
def imageClasses : PolicyReader (List (List U32)) := do
  let (p, _) ← policydbReadHeader
  let _ ← nextU32
  let nel ← nextU32
  let commons ← ByteReader.several readImageCommon nel.toNat
  let _ ← nextU32
  let nel ← nextU32
  let classes ← ByteReader.several (readImageClass p.policyvers) nel.toNat
  pure (classes.flatMap fun c => c.families commons)

end Images

/-- Bit numbers, counted from 1, of different bits of a word. -/
def Usable (values : List U32) : Prop := (∀ v ∈ values, 1 ≤ v ∧ v ≤ 32) ∧ values.Nodup

instance (values : List U32) : Decidable (Usable values) :=
  inferInstanceAs (Decidable ((∀ v ∈ values, 1 ≤ v ∧ v ≤ 32) ∧ values.Nodup))

/-- The permissions that a class inherits and owns. -/
def classPerms (c : ClassDatum) : List (Name × PermDatum) :=
  (match c.comdatum with
    | none => []
    | some comdatum => comdatum.permissions.table.entries) ++ c.permissions.table.entries

def classValues (c : ClassDatum) : List U32 := (classPerms c).map fun perm => perm.2.value

theorem Usable.perm {values others : List U32} (usable : Usable values) (perm : values.Perm others) :
    Usable others := by
  constructor
  · intro v member
    exact usable.1 v (perm.mem_iff.mpr member)
  · exact perm.nodup_iff.mp usable.2

section Read

variable {bytes rest : List U8} {pCommons : Symtab CommonDatum} {vers : U32}

/-- The permissions of a table are those read. -/
theorem perms_read {s s' : Symtab PermDatum} {nel : U32} (ok : TableOk s.table)
    (empty : s.table.entries = [])
    (loop : ByteReader.times permRead nel.toNat s bytes = .ok (s', rest)) :
    ∃ values, readValues nel bytes = .ok (values, rest) ∧ TableOk s'.table ∧
      (s'.table.entries.map fun perm => perm.2.value).Perm values := by
  obtain ⟨items, same, done⟩ := @symbols_read _ permReadDatum _ _ _ _ _ ok empty loop
  refine ⟨items.map fun perm => perm.2.value, ?_, done.ok, done.entries.map _⟩
  simp only [readValues, ByteReader.bind_ok, ByteReader.pure_ok]
  exact ⟨items, rest, same, rfl, rfl⟩

/-- A common of the policy and of the image. -/
structure CommonFrom (e : Name × CommonDatum) (com : ImageCommon) : Prop where
  name : e.1 = com.name
  ok : TableOk e.2.permissions.table
  values : (e.2.permissions.table.entries.map fun perm => perm.2.value).Perm com.values

theorem commonReadDatum_from {e : Name × CommonDatum} (read : commonReadDatum bytes = .ok (e, rest)) :
    ∃ com, readImageCommon bytes = .ok (com, rest) ∧ CommonFrom e com := by
  simp only [commonReadDatum, ByteReader.bind_ok, ByteReader.pure_ok, ByteReader.lift_ok] at read
  obtain ⟨len, s₁, r₁, value, s₂, r₂, nprim, s₃, r₃, nel, s₄, r₄, s₀, s₅, ⟨made, rfl⟩, key, s₆, r₅, perms,
    s₇, loop, rfl, rfl⟩ := read
  obtain ⟨ok, empty⟩ := symtabInit_ok made
  obtain ⟨values, same, permsOk, perm⟩ := perms_read (s := { s₀ with nprim }) ok empty loop
  refine ⟨⟨key, values⟩, ?_, rfl, permsOk, perm⟩
  simp only [readImageCommon, ByteReader.bind_ok, ByteReader.pure_ok]
  exact ⟨len, s₁, r₁, value, s₂, r₂, nprim, s₃, r₃, nel, s₄, r₄, key, s₆, r₅, values, s₇, same, rfl, rfl⟩

/-- The common of a class is found by its name. -/
def FoundCommon (pCommons : Symtab CommonDatum) (comdatum : Option CommonDatum) :
    Option Name → Prop
  | none => comdatum = none
  | some name => ∃ com, symtabSearch pCommons name = some com ∧ comdatum = some com

/-- A class of the policy and of the image. -/
structure ClassFrom (pCommons : Symtab CommonDatum) (e : Name × ClassDatum) (c : ImageClass) : Prop where
  common : FoundCommon pCommons e.2.comdatum c.comkey
  ok : TableOk e.2.permissions.table
  values : (e.2.permissions.table.entries.map fun perm => perm.2.value).Perm c.own

theorem classReadCommon_from {len2 : U32} {comkey : Option Name} {comdatum : Option CommonDatum}
    (read : classReadCommon pCommons len2 bytes = .ok ((comkey, comdatum), rest)) :
    readComkey len2 bytes = .ok (comkey, rest) ∧ FoundCommon pCommons comdatum comkey := by
  unfold classReadCommon at read
  unfold readComkey
  split at read
  · rename_i zero
    obtain ⟨same, rfl⟩ := ByteReader.pure_ok.mp read
    cases same
    rw [if_pos zero]
    exact ⟨rfl, rfl⟩
  · rename_i named
    rw [if_neg named]
    obtain ⟨name, s₁, r₁, read⟩ := ByteReader.bind_ok.mp read
    cases found : symtabSearch pCommons name with
    | none =>
      simp only [found] at read
      exact absurd read ByteReader.fail_ok
    | some com =>
      simp only [found] at read
      obtain ⟨same, rfl⟩ := ByteReader.pure_ok.mp read
      cases same
      refine ⟨?_, com, found, rfl⟩
      simp only [ByteReader.bind_ok, ByteReader.pure_ok]
      exact ⟨name, s₁, r₁, rfl, rfl⟩

theorem classReadDatum_from {e : Name × ClassDatum}
    (read : classReadDatum vers pCommons bytes = .ok (e, rest)) :
    ∃ c, readImageClass vers bytes = .ok (c, rest) ∧ ClassFrom pCommons e c := by
  simp only [classReadDatum, ByteReader.bind_ok, ByteReader.pure_ok, ByteReader.lift_ok] at read
  obtain ⟨len, s₁, r₁, len2, s₂, r₂, value, s₃, r₃, nprim, s₄, r₄, nel, s₅, r₅, ncons, s₆, r₆, s₀, s₇,
    ⟨made, rfl⟩, key, s₈, r₇, ⟨comkey, comdatum⟩, s₉, r₈, perms, s₁₀, loop, constraints, s₁₁, r₉,
    validatetrans, s₁₂, r₁₀, ⟨defaultUser, defaultRole, defaultRange⟩, s₁₃, r₁₁, defaultType, s₁₄, r₁₂,
    rfl, rfl⟩ := read
  obtain ⟨ok, empty⟩ := symtabInit_ok made
  obtain ⟨values, same, permsOk, perm⟩ := perms_read (s := { s₀ with nprim }) ok empty loop
  obtain ⟨sameKey, found⟩ := classReadCommon_from r₈
  refine ⟨⟨comkey, values⟩, ?_, found, permsOk, perm⟩
  simp only [readImageClass, ByteReader.bind_ok, ByteReader.pure_ok]
  exact ⟨len, s₁, r₁, len2, s₂, r₂, value, s₃, r₃, nprim, s₄, r₄, nel, s₅, r₅, ncons, s₆, r₆, key, s₈, r₇,
    comkey, s₉, sameKey, values, s₁₀, same, constraints, s₁₁, r₉, validatetrans, s₁₂, r₁₀, _, s₁₃, r₁₁,
    defaultType, s₁₄, r₁₂, rfl, rfl⟩

end Read

section Families

variable {pCommons : Symtab CommonDatum} {items : List (Name × CommonDatum)}
  {commons : List ImageCommon} {e : Name × ClassDatum} {c : ImageClass}

theorem forall₂_left {α β : Type} {rel : α → β → Prop} {l : List α} {m : List β}
    (all : List.Forall₂ rel l m) : ∀ a ∈ l, ∃ b ∈ m, rel a b := by
  induction all with
  | nil => simp
  | cons related _ ih =>
    intro a member
    rcases List.mem_cons.mp member with rfl | member
    · exact ⟨_, List.mem_cons_self, related⟩
    · obtain ⟨b, inside, same⟩ := ih a member
      exact ⟨b, List.mem_cons_of_mem _ inside, same⟩

/-- The families of a class of the image are the values of the class of the policy, and there is
one. -/
theorem families_from (from_image : ClassFrom pCommons e c) (ok : TableOk pCommons.table)
    (perm : pCommons.table.entries.Perm items) (all : List.Forall₂ CommonFrom items commons) :
    (∃ values ∈ c.families commons, (classValues e.2).Perm values) ∧
      ∀ values ∈ c.families commons, (classValues e.2).Perm values := by
  have own := from_image.values
  have common := from_image.common
  unfold ImageClass.families
  cases key : c.comkey with
  | none =>
    rw [key] at common
    have none : e.2.comdatum = none := common
    have same : (classValues e.2).Perm c.own := by
      simp only [classValues, classPerms, none, List.nil_append]
      exact own
    refine ⟨⟨c.own, List.mem_cons_self, same⟩, ?_⟩
    intro values member
    rw [List.mem_singleton.mp member]
    exact same
  | some name =>
    rw [key] at common
    obtain ⟨com, found, here⟩ := common
    have entry := (symtabSearch_iff ok).mp found
    -- every common of the image with the name is the one found
    have each : ∀ d ∈ commons, d.name = name → (classValues e.2).Perm (d.values ++ c.own) := by
      intro d member named
      obtain ⟨e', inItems, from_d⟩ := forall₂_left all.flip d member
      have also : (name, e'.2) ∈ pCommons.table.entries := by
        rw [perm.mem_iff, ← named, ← from_d.name]
        exact inItems
      have same := (symtabSearch_iff ok).mpr also
      rw [found] at same
      cases same
      simp only [classValues, classPerms, here, List.map_append]
      exact from_d.values.append own
    obtain ⟨d, member, from_d⟩ := forall₂_left all _ (perm.mem_iff.mp entry)
    refine ⟨⟨d.values ++ c.own, ?_, each d member from_d.name.symm⟩, ?_⟩
    · refine List.mem_map.mpr ⟨d, List.mem_filter.mpr ⟨member, ?_⟩, rfl⟩
      simp [← from_d.name]
    · intro values inside
      obtain ⟨d, kept, rfl⟩ := List.mem_map.mp inside
      obtain ⟨member, named⟩ := List.mem_filter.mp kept
      exact each d member (by simpa using named)

/-- The tables of an accepted policy have the values of its image. -/
theorem classes_from {p : Policydb} {bytes rest : List U8} (read : policydbRead bytes = .ok (p, rest)) :
    ∃ image more, imageClasses bytes = .ok (image, more) ∧
      ((∀ e ∈ p.pClasses.table.entries, Usable (classValues e.2)) ↔ ∀ values ∈ image, Usable values) := by
  obtain ⟨p₀, info, mid, p₁, _, header, symtabs, tables⟩ := policydbRead_symtabs read
  obtain ⟨s, rfl⟩ := PolicydbShape.symtabsRead_steps symtabs
  obtain ⟨_, _, commonItems, _, _, c₁, c₂, commonsTaken, commonsDone⟩ := symtabRead_symbols s.commons
  obtain ⟨_, _, classItems, _, _, k₁, k₂, classesTaken, classesDone⟩ := symtabRead_symbols s.classes
  obtain ⟨commons, commonsSame, allCommons⟩ :=
    ByteReader.several_related (fun _ _ _ once => commonReadDatum_from once) commonsTaken
  obtain ⟨classes, classesSame, allClasses⟩ :=
    ByteReader.several_related (fun _ _ _ once => classReadDatum_from once) classesTaken
  refine ⟨classes.flatMap fun c => c.families commons, s.atRoles, ?_, ?_⟩
  · simp only [imageClasses, ByteReader.bind_ok, ByteReader.pure_ok]
    exact ⟨(p₀, info), _, header, _, _, c₁, _, _, c₂, commons, _, commonsSame, _, _, k₁, _, _, k₂, classes,
      _, classesSame, rfl, rfl⟩
  · have same : p.pClasses = s.pClasses := tables.classes
    rw [same]
    constructor
    · intro usable values member
      obtain ⟨c, inImage, inFamilies⟩ := List.mem_flatMap.mp member
      obtain ⟨e, inItems, from_c⟩ := forall₂_left allClasses.flip c inImage
      have entry := classesDone.entries.mem_iff.mpr inItems
      exact (usable e entry).perm
        ((families_from from_c commonsDone.ok commonsDone.entries allCommons).2 values inFamilies)
    · intro usable e entry
      obtain ⟨c, inImage, from_c⟩ := forall₂_left allClasses e (classesDone.entries.mem_iff.mp entry)
      obtain ⟨values, inFamilies, perm⟩ :=
        (families_from from_c commonsDone.ok commonsDone.entries allCommons).1
      exact (usable values (List.mem_flatMap.mpr ⟨c, inImage, inFamilies⟩)).perm perm.symm

end Families

/-- A single bit. -/
def IsBit (x : U32) : Prop := ∃ i < 32, x = 1#32 <<< i

section Bits

variable {p : Policydb} {c : ClassDatum} {tclass : U16} {a b : Name} {x y : U32}

theorem bit_inj {i j : Nat} (inside : i < 32) (same : 1#32 <<< i = 1#32 <<< j) : i = j := by
  have here : (1#32 <<< i).getLsbD i = true := by simp [inside]
  rw [same] at here
  simp only [BitVec.getLsbD_shiftLeft, BitVec.getLsbD_one, Bool.and_eq_true, Bool.not_eq_true',
    decide_eq_false_iff_not, decide_eq_true_eq] at here
  omega

theorem mem_classPerms {d : PermDatum} (found : classPermSearch c a = some d) :
    (a, d) ∈ classPerms c := by
  unfold classPermSearch at found
  unfold classPerms
  cases common : c.comdatum with
  | none =>
    simp only [common] at found
    exact List.mem_append_right _ (symtabSearch_mem found)
  | some comdatum =>
    simp only [common] at found
    split at found
    · rename_i perdatum inCommon
      cases found
      exact List.mem_append_left _ (symtabSearch_mem inCommon)
    · exact List.mem_append_right _ (symtabSearch_mem found)

/-- A permission is looked up in the class at the place of the value. -/
theorem stringToAvPerm_some (asked : stringToAvPerm p tclass a = .ok x) (known : x ≠ 0) :
    ∃ c d, p.classValToStruct[(tclass.zeroExtend 32 - 1).toNat]? = some (some c) ∧
      classPermSearch c a = some d ∧ x = 1#32 <<< ((d.value - 1).toNat % 32) := by
  unfold stringToAvPerm at asked
  split at asked
  · cases asked
    exact absurd rfl known
  · simp only [exceptBind_ok] at asked
    obtain ⟨entry, slot, c, deref, asked⟩ := asked
    have here : p.classValToStruct[(tclass.zeroExtend 32 - 1).toNat]? = some (some c) := by
      unfold atValue at slot
      cases at_slot : p.classValToStruct[(tclass.zeroExtend 32 - 1).toNat]? with
      | none =>
        rw [at_slot] at slot
        cases slot
      | some found =>
        rw [at_slot] at slot
        cases slot
        cases entry with
        | none => cases deref
        | some c' =>
          cases deref
          rfl
    cases found : classPermSearch c a with
    | none =>
      rw [found] at asked
      cases asked
      exact absurd rfl known
    | some d =>
      rw [found] at asked
      cases asked
      exact ⟨c, d, here, found, rfl⟩

/-- Where the values are usable, a permission is the bit of its value. -/
theorem usable_bit {d : PermDatum} (usable : Usable (classValues c)) (member : (a, d) ∈ classPerms c) :
    (d.value - 1).toNat % 32 = d.value.toNat - 1 ∧ 1 ≤ d.value.toNat ∧ d.value.toNat ≤ 32 := by
  have bounds : 1 ≤ d.value.toNat ∧ d.value.toNat ≤ 32 :=
    usable.1 d.value (List.mem_map_of_mem (f := fun perm => perm.2.value) member)
  have low : d.value - 1 = d.value - 1#32 := rfl
  have less : (d.value - 1).toNat = d.value.toNat - 1 := by
    rw [low, BitVec.toNat_sub_of_le]
    · rfl
    · rw [BitVec.le_def]
      exact bounds.1
  omega

end Bits

section Mapping

variable {p : Policydb} {map : List SecurityClassMapping} {mapping : List SelinuxMapping} {value : U16}

/-- Each permission of a class of the mapping is looked up by its name, or zero. -/
theorem setMappingPerms_each {names : List Name} {perms : List U32}
    (set : setMappingPerms p value names = .ok perms) :
    ∀ (k : Nat) a x, names[k]? = some a → perms[k]? = some x → x ≠ 0 →
      stringToAvPerm p value a = .ok x := by
  induction names generalizing perms with
  | nil => simp
  | cons name rest ih =>
    intro k a x named permAt known
    unfold setMappingPerms at set
    split at set
    · split at set
      · cases set
      · rename_i perms later
        cases set
        cases k with
        | zero =>
          cases permAt
          exact absurd rfl known
        | succ k => exact ih later k a x named permAt known
    · split at set
      · cases set
      · rename_i perm asked
        split at set
        · cases set
        · split at set
          · cases set
          · rename_i perms later
            cases set
            cases k with
            | zero =>
              cases named
              cases permAt
              exact asked
            | succ k => exact ih later k a x named permAt known

theorem setMappingClasses_each (set : setMappingClasses p map = .ok mapping) :
    ∀ (j : Nat) pIn pOut, map[j]? = some pIn → mapping[j]? = some pOut →
      setMappingClass p pIn = .ok pOut := by
  induction map generalizing mapping with
  | nil => simp
  | cons first rest ih =>
    intro j pIn pOut inAt outAt
    unfold setMappingClasses at set
    split at set
    · cases set
    · rename_i pOut' one
      split at set
      · cases set
      · rename_i mapping later
        cases set
        cases j with
        | zero =>
          cases inAt
          cases outAt
          exact one
        | succ j => exact ih later j pIn pOut inAt outAt

/-- A permission of the mapping that the policy knows is looked up by its name. -/
theorem mapped_perm {out : SelinuxMap} (set : selinuxSetMapping p map = .ok out) {j k : Nat}
    {pIn : SecurityClassMapping} {pOut : SelinuxMapping} {a : Name} {x : U32}
    (inAt : map[j]? = some pIn) (outAt : out.mapping[j + 1]? = some pOut)
    (named : pIn.perms[k]? = some a) (permAt : pOut.perms[k]? = some x) (known : x ≠ 0) :
    stringToAvPerm p pOut.value a = .ok x := by
  unfold selinuxSetMapping at set
  split at set
  · cases set
  · rename_i mapping classes
    cases set
    have one := setMappingClasses_each classes j pIn pOut inAt outAt
    unfold setMappingClass at one
    split at one
    · cases one
      cases permAt
    · dsimp only at one
      split at one
      · split at one
        · cases one
        · cases one
          cases permAt
      · split at one
        · cases one
        · rename_i perms set
          cases one
          exact setMappingPerms_each set k a x named permAt known

end Mapping

/-- What a policy needs of the values of permissions, and what follows for their readers. -/
structure PermissionsUsable (p : Policydb) : Prop where
  values : ∀ e ∈ p.pClasses.table.entries, Usable (classValues e.2)
  bits : ∀ tclass a b x y, stringToAvPerm p tclass a = .ok x → stringToAvPerm p tclass b = .ok y →
    x ≠ 0 → y ≠ 0 → a ≠ b → IsBit x ∧ IsBit y ∧ x ≠ y
  mapping : ∀ map out, selinuxSetMapping p map = .ok out → ∀ (j k l : Nat) pIn pOut a b x y,
    map[j]? = some pIn → out.mapping[j + 1]? = some pOut → pIn.perms[k]? = some a →
    pIn.perms[l]? = some b → pOut.perms[k]? = some x → pOut.perms[l]? = some y →
    x ≠ 0 → y ≠ 0 → a ≠ b → IsBit x ∧ IsBit y ∧ x ≠ y
  dump : ∀ tclass c, p.classValToStruct[(tclass - 1 : U32).toNat]? = some (some c) →
    ∃ names, dumpPermissionNames c = .ok names

section Usable

variable {p : Policydb}

theorem hashtabMap_total {σ : Type} {apply : Name → PermDatum → σ → Except Fault σ}
    {entries : List (Name × PermDatum)} (each : ∀ e ∈ entries, ∀ s, ∃ s', apply e.1 e.2 s = .ok s')
    (s : σ) : ∃ s', hashtabMap apply entries s = .ok s' := by
  induction entries generalizing s with
  | nil => exact ⟨s, rfl⟩
  | cons cur next ih =>
    obtain ⟨mid, first⟩ := each cur List.mem_cons_self s
    obtain ⟨s', rest⟩ := ih (fun e member => each e (List.mem_cons_of_mem _ member)) mid
    refine ⟨s', ?_⟩
    unfold hashtabMap
    rw [first]
    exact rest

theorem dump_total {c : ClassDatum} (usable : Usable (classValues c)) :
    ∃ names, dumpPermissionNames c = .ok names := by
  have each : ∀ e ∈ classPerms c, ∀ s, ∃ s', dumpMaskedAvHelper e.1 e.2 s = .ok s' := by
    intro e member s
    have bounds := usable.1 e.2.value (List.mem_map_of_mem (f := fun perm => perm.2.value) member)
    refine ⟨s.set (e.2.value - 1).toNat (some e.1), ?_⟩
    unfold dumpMaskedAvHelper
    rw [if_neg]
    rw [not_or, BitVec.not_lt, BitVec.not_lt]
    exact bounds
  unfold classPerms at each
  unfold dumpPermissionNames
  dsimp only
  cases common : c.comdatum with
  | none =>
    simp only [common, List.nil_append] at each
    exact hashtabMap_total each _
  | some comdatum =>
    simp only [common] at each
    obtain ⟨names, first⟩ := hashtabMap_total
      (fun e member => each e (List.mem_append_left _ member)) (List.replicate 32 none)
    simp only [first]
    exact hashtabMap_total (fun e member => each e (List.mem_append_right _ member)) names

theorem permissionsUsable_of_values (arrays : Arrays p)
    (usable : ∀ e ∈ p.pClasses.table.entries, Usable (classValues e.2)) : PermissionsUsable p := by
  have atSlot : ∀ {i : Nat} {c}, p.classValToStruct[i]? = some (some c) → Usable (classValues c) := by
    intro i c slot
    obtain ⟨key, datum, member, -, -, same⟩ := arrays.classes.entry slot
    rw [same]
    exact usable (key, datum) member
  have bits : ∀ tclass a b x y, stringToAvPerm p tclass a = .ok x → stringToAvPerm p tclass b = .ok y →
      x ≠ 0 → y ≠ 0 → a ≠ b → IsBit x ∧ IsBit y ∧ x ≠ y := by
    intro tclass a b x y askedA askedB knownA knownB apart
    obtain ⟨c, d, slot, foundA, rfl⟩ := stringToAvPerm_some askedA knownA
    obtain ⟨c', d', slot', foundB, rfl⟩ := stringToAvPerm_some askedB knownB
    rw [slot] at slot'
    cases slot'
    have inA := mem_classPerms foundA
    have inB := mem_classPerms foundB
    obtain ⟨placeA, lowA, highA⟩ := usable_bit (atSlot slot) inA
    obtain ⟨placeB, lowB, highB⟩ := usable_bit (atSlot slot) inB
    rw [placeA, placeB]
    refine ⟨⟨_, by omega, rfl⟩, ⟨_, by omega, rfl⟩, fun same => ?_⟩
    have places := bit_inj (by omega) same
    have values : d.value = d'.value := BitVec.eq_of_toNat_eq (by omega)
    have entries := List.inj_on_of_nodup_map (atSlot slot).2 inA inB values
    exact apart (congrArg Prod.fst entries)
  constructor
  · exact usable
  · exact bits
  · intro map out set j k l pIn pOut a b x y inAt outAt namedA namedB permA permB knownA knownB apart
    have askedA := mapped_perm set inAt outAt namedA permA knownA
    have askedB := mapped_perm set inAt outAt namedB permB knownB
    exact bits pOut.value a b x y askedA askedB knownA knownB apart
  · intro tclass c slot
    exact dump_total (atSlot slot)

/-- For every accepted image, the permissions of every class are usable bit numbers, with all that
follows for their readers, if and only if the value words of the image are, class by class. -/
theorem permission_values_usable {bytes rest : List U8} (read : policydbRead bytes = .ok (p, rest)) :
    ∃ image more, imageClasses bytes = .ok (image, more) ∧
      (PermissionsUsable p ↔ ∀ values ∈ image, Usable values) := by
  obtain ⟨image, more, same, values⟩ := classes_from read
  have arrays := stages_arrays (policydbRead_stages read).1
  refine ⟨image, more, same, ?_⟩
  rw [← values]
  constructor
  · intro permissions
    exact permissions.values
  · exact permissionsUsable_of_values arrays

theorem permission_values_usable_small :
    ∃ p rest, policydbRead smallImage.bytes = .ok (p, rest) ∧
      ∃ image more, imageClasses smallImage.bytes = .ok (image, more) ∧
        (PermissionsUsable p ↔ ∀ values ∈ image, Usable values) := by
  have accepted : smallImage.accepts (fun _ => true) = true := by decide +kernel
  obtain ⟨p, rest, read, -⟩ := PolicyImage.accepts_iff.mp accepted
  exact ⟨p, rest, read, permission_values_usable read⟩

/-- The second permission of the process class has the value 33. -/
def shiftedImage : PolicyImage :=
  { smallImage with
    classes := symbols 1 [classBytes 1 processName [permBytes 1 transitionName,
      permBytes 33 dyntransitionName]] }

/-- Two names for one bit, and a `BUG_ON` that is reached. -/
theorem two_names_one_bit :
    ∃ p rest, policydbRead shiftedImage.bytes = .ok (p, rest) ∧ ¬ PermissionsUsable p ∧
      stringToAvPerm p 1 transitionName = .ok 1 ∧ stringToAvPerm p 1 dyntransitionName = .ok 1 ∧
      ∃ c, some c ∈ p.classValToStruct ∧ dumpPermissionNames c = .error .oops := by
  have accepted : shiftedImage.accepts (fun p =>
      decide (stringToAvPerm p 1 transitionName = .ok 1) &&
        decide (stringToAvPerm p 1 dyntransitionName = .ok 1) &&
        p.classValToStruct.any fun slot => slot.any fun c =>
          decide (dumpPermissionNames c = .error .oops)) = true := by
    decide +kernel
  obtain ⟨p, rest, read, test⟩ := PolicyImage.accepts_iff.mp accepted
  simp only [Bool.and_eq_true, decide_eq_true_eq, List.any_eq_true, Option.any_eq_true] at test
  obtain ⟨⟨first, second⟩, slot, member, c, here, bug⟩ := test
  refine ⟨p, rest, read, fun permissions => ?_, first, second, c, here ▸ member, bug⟩
  have apart : transitionName ≠ dyntransitionName := by decide
  exact (permissions.bits 1 _ _ 1 1 first second (by decide) (by decide) apart).2.2 rfl

end Usable

end Ksrc.Guarantees.PermissionValues

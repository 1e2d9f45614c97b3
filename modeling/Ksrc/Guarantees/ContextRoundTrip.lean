import Ksrc.Source.ContextString
import Ksrc.Guarantees.EbitmapBits
import Ksrc.Guarantees.StringOrder

/-!
# Context strings read back

Source: `security/selinux/ss/services.c`, `mls.c`. The printer writes a category set as runs,
the parser sets the bits of the runs in the same order.
-/
namespace Ksrc.Guarantees.ContextRoundTrip

open Library Source EbitmapBits StringOrder

/-- No separator of a context string and no terminator is in the name. -/
structure Plain (name : Name) : Prop where
  nul : 0 ∉ name
  colon : colon ∉ name
  comma : comma ∉ name
  dash : dash ∉ name
  dot : dot ∉ name

/-- Every value up to `nprim` has a name, the name leads back to the value, and it is plain. -/
structure Names {δ : Type} (table : Symtab δ) (names : List (Option Name)) (value : δ → U32) :
    Prop where
  named : ∀ v, v ≠ 0 → v ≤ table.nprim → ∃ name, symName names v = .ok name
  unique : ∀ v name, v ≠ 0 → v ≤ table.nprim → symName names v = .ok name →
    ∃ datum, symtabSearch table name = some datum ∧ value datum = v
  plain : ∀ v name, v ≠ 0 → v ≤ table.nprim → symName names v = .ok name → Plain name

/-- The names of a policy. -/
structure NamedPolicy (p : Policydb) : Prop where
  users : Names p.pUsers p.symValToName.users UserDatum.value
  roles : Names p.pRoles p.symValToName.roles RoleDatum.value
  types : Names p.pTypes p.symValToName.types TypeDatum.value
  levels : Names p.pLevels p.symValToName.levels fun levdatum => levdatum.level.sens
  cats : Names p.pCats p.symValToName.cats CatDatum.value

/-- The type is not an attribute. -/
def NotAttribute (p : Policydb) (type : U32) : Prop :=
  ∀ name datum, symName p.symValToName.types type = .ok name →
    symtabSearch p.pTypes name = some datum → datum.isAttribute = 0

/-- The printer counts categories as `int`. -/
def catLimit (p : Policydb) : Nat := min p.pCats.nprim.toNat (2 ^ 31)

/-- The category set is in canonical form and has categories of the policy only. -/
structure CatsOk (p : Policydb) (cat : Ebitmap) : Prop where
  canonical : Canonical cat
  known : ∀ b, InBitmap cat b → b < catLimit p

section Cats

variable {p : Policydb} {names : Nat → Name}

/-- The names of the categories by their bit. -/
structure CatNames (p : Policydb) (names : Nat → Name) (limit : Nat) : Prop where
  small : limit ≤ 2 ^ 31
  name : ∀ i, i < limit → symName p.symValToName.cats (BitVec.ofNat 32 (i + 1)) = .ok (names i)
  datum : ∀ i, i < limit → ∃ catdatum, symtabSearch p.pCats (names i) = some catdatum ∧
    catdatum.value = BitVec.ofNat 32 (i + 1)
  plain : ∀ i, i < limit → Plain (names i)

theorem NamedPolicy.catNames (named : NamedPolicy p) :
    ∃ names, CatNames p names (catLimit p) := by
  have value : ∀ i, i < catLimit p → BitVec.ofNat 32 (i + 1) ≠ 0 ∧
      BitVec.ofNat 32 (i + 1) ≤ p.pCats.nprim := by
    intro i inside
    unfold catLimit at inside
    have toNat : (BitVec.ofNat 32 (i + 1)).toNat = i + 1 := by
      rw [BitVec.toNat_ofNat, Nat.mod_eq_of_lt (by omega)]
    refine ⟨fun zero => ?_, by rw [BitVec.le_def, toNat]; omega⟩
    rw [zero] at toNat
    cases toNat
  have each : ∀ i, ∃ name, i < catLimit p →
      symName p.symValToName.cats (BitVec.ofNat 32 (i + 1)) = .ok name := by
    intro i
    by_cases inside : i < catLimit p
    · obtain ⟨name, found⟩ := named.cats.named _ (value i inside).1 (value i inside).2
      exact ⟨name, fun _ => found⟩
    · exact ⟨[], fun less => absurd less inside⟩
  obtain ⟨names, found⟩ := Classical.axiom_of_choice each
  refine ⟨names, Nat.min_le_right _ _, found, fun i inside => ?_, fun i inside => ?_⟩
  · exact named.cats.unique _ _ (value i inside).1 (value i inside).2 (found i inside)
  · exact named.cats.plain _ _ (value i inside).1 (value i inside).2 (found i inside)

/-- The name of a bit, by its 32-bit number. -/
theorem CatNames.name_succ {names : Nat → Name} {limit : Nat} (catNames : CatNames p names limit)
    {i : U32} (inside : i.toNat < limit) :
    symName p.symValToName.cats (i + 1) = .ok (names i.toNat) := by
  have value : i + 1 = BitVec.ofNat 32 (i.toNat + 1) := by
    rw [BitVec.ofNat_add, BitVec.ofNat_toNat, BitVec.setWidth_eq]
    rfl
  rw [value, catNames.name _ inside]

/-- The close of a run from `head` to `prev`. -/
def runClose (names : Nat → Name) (head prev : Nat) : List U8 :=
  if prev = head then [] else (if prev - head > 1 then dot else comma) :: names prev

/-- What follows the name of `head` when the run has come to `prev`. -/
def runText (names : Nat → Name) : Nat → Nat → List Nat → List U8
  | head, prev, [] => runClose names head prev
  | head, prev, i :: rest =>
    if i - prev > 1 then runClose names head prev ++ comma :: names i ++ runText names i i rest
    else runText names head i rest

/-- The text of a category set. -/
def catsText (names : Nat → Name) : List Nat → List U8
  | [] => []
  | i :: rest => colon :: names i ++ runText names i i rest

section Printer

variable {limit : Nat} (catNames : CatNames p names limit)
include catNames

theorem close_printed {head prev : Nat} (inside : prev < limit) :
    mlsSidToContextClose p head prev = .ok (runClose names head prev) := by
  have value : BitVec.ofInt 32 (prev : Int) + 1 = BitVec.ofNat 32 (prev + 1) := by
    rw [BitVec.ofInt_natCast, BitVec.ofNat_add]
    rfl
  unfold mlsSidToContextClose runClose
  by_cases same : prev = head
  · rw [if_pos same, if_neg (not_not.mpr (congrArg Nat.cast same))]
    rfl
  · have differs : (prev : Int) ≠ head := fun equal => same (Int.ofNat.inj equal)
    rw [if_pos differs, if_neg same, value, catNames.name prev inside]
    by_cases long : prev - head > 1
    · have long' : (prev : Int) - head > 1 := by omega
      rw [if_pos long]
      simp only [long', if_true]
      rfl
    · by_cases long' : (prev : Int) - head > 1
      · omega
      · rw [if_neg long]
        simp only [long', if_false]
        rfl

theorem cats_printed {bits : List U32} {head prev : Nat} (inside : prev < limit)
    (known : ∀ b ∈ bits, b.toNat < limit) (later : ∀ b ∈ bits, prev < b.toNat)
    (sorted : (bits.map BitVec.toNat).Pairwise (· < ·)) :
    mlsSidToContextCats p bits head prev = .ok (runText names head prev (bits.map BitVec.toNat)) := by
  have small := catNames.small
  induction bits generalizing head prev with
  | nil => exact close_printed catNames inside
  | cons i rest ih =>
    have isKnown := known i List.mem_cons_self
    have isLater := later i List.mem_cons_self
    have toInt : i.toInt = (i.toNat : Int) := BitVec.toInt_eq_toNat_of_lt (by omega)
    rw [List.map_cons, List.pairwise_cons] at sorted
    have restKnown : ∀ b ∈ rest, b.toNat < limit :=
      fun b member => known b (List.mem_cons_of_mem i member)
    have restLater : ∀ b ∈ rest, i.toNat < b.toNat :=
      fun b member => sorted.1 b.toNat (List.mem_map_of_mem member)
    unfold mlsSidToContextCats
    rw [List.map_cons, runText, toInt]
    by_cases gap : i.toNat - prev > 1
    · have gap' : (i.toNat : Int) - prev > 1 := by omega
      have positive : ¬ (prev : Int) < 0 := by omega
      rw [if_pos gap, if_pos gap', close_printed catNames inside, catNames.name_succ isKnown,
        ih isKnown restKnown restLater sorted.2, if_neg positive]
      rfl
    · have gap' : ¬ (i.toNat : Int) - prev > 1 := by omega
      rw [if_neg gap, if_neg gap']
      exact ih isKnown restKnown restLater sorted.2

/-- The printer writes the text of the set. -/
theorem set_printed {bits : List U32} (known : ∀ b ∈ bits, b.toNat < limit)
    (sorted : (bits.map BitVec.toNat).Pairwise (· < ·)) :
    mlsSidToContextCats p bits (-2) (-2) = .ok (catsText names (bits.map BitVec.toNat)) := by
  have small := catNames.small
  cases bits with
  | nil => rfl
  | cons i rest =>
    have isKnown := known i List.mem_cons_self
    have toInt : i.toInt = (i.toNat : Int) := BitVec.toInt_eq_toNat_of_lt (by omega)
    rw [List.map_cons, List.pairwise_cons] at sorted
    have restKnown : ∀ b ∈ rest, b.toNat < limit :=
      fun b member => known b (List.mem_cons_of_mem i member)
    have restLater : ∀ b ∈ rest, i.toNat < b.toNat :=
      fun b member => sorted.1 b.toNat (List.mem_map_of_mem member)
    have gap : (i.toNat : Int) - (-2) > 1 := by omega
    unfold mlsSidToContextCats
    rw [toInt, if_pos gap, catNames.name_succ isKnown,
      cats_printed catNames isKnown restKnown restLater sorted.2]
    rfl

end Printer

section Parser

variable {limit : Nat} {cat cat' : Ebitmap} {turns : Nat} {curCat nextCat : List U8}

/-- Bits set one after the other. -/
def setBits (cat : Ebitmap) (bits : List Nat) : Ebitmap :=
  bits.foldl (fun cat i => ebitmapSetBit cat i true) cat

theorem setBits_append (bits later : List Nat) :
    setBits cat (bits ++ later) = setBits (setBits cat bits) later := List.foldl_append

/-- A field before a comma is read by itself. -/
theorem field_read (unterminated : 0 ∉ curCat) (unseparated : comma ∉ curCat)
    (read : (mlsContextToSidCat p curCat cat).1 = .ok cat') :
    (mlsContextToSidCats p (turns + 1) (curCat ++ comma :: nextCat) cat).1 =
      (mlsContextToSidCats p turns nextCat cat').1 := by
  rw [mlsContextToSidCats, cut_append (by decide) unterminated unseparated]
  dsimp only
  cases field : mlsContextToSidCat p curCat cat with
  | mk result buffer =>
    rw [field] at read
    dsimp only at read
    rw [read]
    rfl

/-- So is the last one. -/
theorem last_read (unseparated : comma ∉ curCat) :
    (mlsContextToSidCats p (turns + 1) curCat cat).1 = (mlsContextToSidCat p curCat cat).1 := by
  unfold mlsContextToSidCats
  rw [cut_none unseparated]

theorem range'_single (head : Nat) : List.range' head (head - head + 1) = [head] := by
  rw [Nat.sub_self, List.range'_succ, List.range'_zero]

section Known

variable (catNames : CatNames p names limit)
include catNames

theorem CatNames.found {i : Nat} (inside : i < limit) : ∃ catdatum,
    symtabSearch p.pCats (names i) = some catdatum ∧ catdatum.value.toNat = i + 1 ∧
      (catdatum.value - 1).toNat = i := by
  have small := catNames.small
  obtain ⟨catdatum, found, value⟩ := catNames.datum i inside
  have minus : (BitVec.ofNat 32 (i + 1) : U32) - 1 = BitVec.ofNat 32 i := by
    rw [BitVec.ofNat_add]
    exact BitVec.add_sub_cancel _ _
  refine ⟨catdatum, found, ?_, ?_⟩
  · rw [value, BitVec.toNat_ofNat, Nat.mod_eq_of_lt (by omega)]
  · rw [value, minus, BitVec.toNat_ofNat, Nat.mod_eq_of_lt (by omega)]

/-- One category is read. -/
theorem name_read {i : Nat} (inside : i < limit) :
    (mlsContextToSidCat p (names i) cat).1 = .ok (setBits cat [i]) := by
  have plain := catNames.plain i inside
  obtain ⟨catdatum, found, -, bit⟩ := catNames.found inside
  unfold mlsContextToSidCat
  rw [cut_none plain.dot]
  dsimp only
  rw [cString_unterminated plain.nul, found]
  dsimp only
  rw [bit]
  rfl

/-- A range of categories is read. -/
theorem range_read {head prev : Nat} (inside : prev < limit) (less : head < prev) :
    (mlsContextToSidCat p (names head ++ dot :: names prev) cat).1 =
      .ok (setBits cat (List.range' head (prev - head + 1))) := by
  have first := catNames.plain head (less.trans inside)
  have last := catNames.plain prev inside
  obtain ⟨catdatum, found, value, bit⟩ := catNames.found (less.trans inside)
  obtain ⟨rngdatum, found', value', -⟩ := catNames.found inside
  have ascending : ¬ rngdatum.value ≤ catdatum.value := by
    rw [BitVec.le_def]
    omega
  have count : prev + 1 - (head + 1) = prev - head := by omega
  unfold mlsContextToSidCat
  rw [cut_append (by decide) first.nul first.dot]
  dsimp only
  rw [found]
  dsimp only
  rw [cString_unterminated last.nul, found']
  dsimp only
  rw [if_neg ascending, value, value', bit, count, List.range'_succ]
  rfl

/-- A run at the end of the set is read. -/
theorem close_read {head prev : Nat} (inside : prev < limit) (less : head ≤ prev)
    (enough : (names head ++ runClose names head prev).length < turns) :
    (mlsContextToSidCats p turns (names head ++ runClose names head prev) cat).1 =
      .ok (setBits cat (List.range' head (prev - head + 1))) := by
  have first := catNames.plain head (by omega)
  have last := catNames.plain prev inside
  have positive : turns = turns - 1 + 1 := by omega
  rw [positive]
  unfold runClose at enough ⊢
  by_cases same : prev = head
  · rw [if_pos same, List.append_nil, last_read first.comma, name_read catNames (by omega), same,
      Nat.sub_self]
    rfl
  · rw [if_neg same] at enough ⊢
    by_cases long : prev - head > 1
    · simp only [if_pos long]
      have unseparated : comma ∉ names head ++ dot :: names prev := by
        rw [List.mem_append, List.mem_cons, not_or, not_or]
        exact ⟨first.comma, by decide, last.comma⟩
      rw [last_read unseparated, range_read catNames inside (by omega)]
    · simp only [if_neg long] at enough ⊢
      have next : prev = head + 1 := by omega
      rw [List.length_append, List.length_cons] at enough
      have positive' : turns - 1 = turns - 2 + 1 := by omega
      rw [field_read first.nul first.comma (name_read catNames (by omega)), positive',
        last_read last.comma, name_read catNames inside, ← setBits_append, next]
      congr 2
      rw [Nat.add_sub_cancel_left]
      rfl

/-- So is one with more behind it. -/
theorem run_read {head prev : Nat} (inside : prev < limit) (less : head ≤ prev)
    (enough : (names head ++ runClose names head prev ++ comma :: nextCat).length < turns) :
    ∃ turns', nextCat.length < turns' ∧
      (mlsContextToSidCats p turns (names head ++ runClose names head prev ++ comma :: nextCat)
        cat).1 =
      (mlsContextToSidCats p turns' nextCat
        (setBits cat (List.range' head (prev - head + 1)))).1 := by
  have first := catNames.plain head (by omega)
  have last := catNames.plain prev inside
  have positive : turns = turns - 1 + 1 := by omega
  rw [positive]
  unfold runClose at enough ⊢
  by_cases same : prev = head
  · rw [if_pos same, List.append_nil] at enough ⊢
    rw [List.length_append, List.length_cons] at enough
    refine ⟨turns - 1, by omega, ?_⟩
    rw [field_read first.nul first.comma (name_read catNames (by omega)), same, Nat.sub_self]
    rfl
  · rw [if_neg same] at enough ⊢
    by_cases long : prev - head > 1
    · simp only [if_pos long] at enough ⊢
      have unseparated : comma ∉ names head ++ dot :: names prev := by
        rw [List.mem_append, List.mem_cons, not_or, not_or]
        exact ⟨first.comma, by decide, last.comma⟩
      have unterminated : 0 ∉ names head ++ dot :: names prev := by
        rw [List.mem_append, List.mem_cons, not_or, not_or]
        exact ⟨first.nul, by decide, last.nul⟩
      simp only [List.length_append, List.length_cons] at enough
      refine ⟨turns - 1, by omega, ?_⟩
      rw [field_read unterminated unseparated (range_read catNames inside (by omega))]
    · simp only [if_neg long] at enough ⊢
      have next : prev = head + 1 := by omega
      simp only [List.length_append, List.length_cons] at enough
      have positive' : turns - 1 = turns - 2 + 1 := by omega
      refine ⟨turns - 2, by omega, ?_⟩
      rw [List.append_assoc, List.cons_append,
        field_read first.nul first.comma (name_read catNames (by omega)), positive',
        field_read last.nul last.comma (name_read catNames inside), ← setBits_append, next]
      congr 3
      rw [Nat.add_sub_cancel_left]
      rfl

/-- The parser sets the bits of the runs. -/
theorem runs_read {bits : List Nat} {head prev : Nat} (inside : prev < limit) (less : head ≤ prev)
    (known : ∀ b ∈ bits, b < limit) (later : ∀ b ∈ bits, prev < b)
    (sorted : bits.Pairwise (· < ·))
    (enough : (names head ++ runText names head prev bits).length < turns) :
    (mlsContextToSidCats p turns (names head ++ runText names head prev bits) cat).1 =
      .ok (setBits cat (List.range' head (prev - head + 1) ++ bits)) := by
  induction bits generalizing head prev cat turns with
  | nil =>
    rw [List.append_nil]
    exact close_read catNames inside less enough
  | cons i rest ih =>
    rw [List.pairwise_cons] at sorted
    have isKnown := known i List.mem_cons_self
    have isLater := later i List.mem_cons_self
    have restKnown : ∀ b ∈ rest, b < limit := fun b member => known b (List.mem_cons_of_mem i member)
    rw [runText] at enough ⊢
    by_cases gap : i - prev > 1
    · rw [if_pos gap] at enough ⊢
      have shape : names head ++ (runClose names head prev ++ comma :: names i ++
          runText names i i rest) =
          names head ++ runClose names head prev ++ comma :: (names i ++ runText names i i rest) := by
        simp only [List.append_assoc, List.cons_append]
      rw [shape] at enough ⊢
      obtain ⟨turns', enough', read⟩ := run_read catNames inside less enough
      rw [read, ih isKnown (Nat.le_refl i) restKnown sorted.1 sorted.2 enough', ← setBits_append,
        range'_single i, List.singleton_append]
    · rw [if_neg gap] at enough ⊢
      have next : i = prev + 1 := by omega
      have count : i - head + 1 = prev - head + 1 + 1 := by omega
      have place : head + (prev - head + 1) = i := by omega
      rw [ih isKnown (by omega) restKnown sorted.1 sorted.2 enough, count, List.range'_1_concat, place,
        List.append_assoc, List.singleton_append]

end Known

end Parser

end Cats

section Lengths

variable {p : Policydb} {l : MlsLevel} {context : Context}

theorem close_len (head prev : Int) :
    (if prev ≠ head then do
      let name ← symName p.symValToName.cats (BitVec.ofInt 32 prev + 1)
      pure (name.length + 1)
    else pure 0) = (mlsSidToContextClose p head prev).map List.length := by
  unfold mlsSidToContextClose
  by_cases same : prev ≠ head
  · rw [if_pos same, if_pos same]
    cases symName p.symValToName.cats (BitVec.ofInt 32 prev + 1) with
    | error e => rfl
    | ok name => rfl
  · rw [if_neg same, if_neg same]
    rfl

theorem cats_len (bits : List U32) (head prev : Int) :
    mlsComputeCatsLen p bits head prev = (mlsSidToContextCats p bits head prev).map List.length := by
  induction bits generalizing head prev with
  | nil => exact close_len head prev
  | cons i rest ih =>
    rw [mlsComputeCatsLen, mlsSidToContextCats]
    by_cases gap : i.toInt - prev > 1
    · rw [if_pos gap, if_pos gap, ih]
      unfold mlsSidToContextClose
      by_cases same : prev ≠ head
      · rw [if_pos same.symm, if_pos same]
        cases symName p.symValToName.cats (BitVec.ofInt 32 prev + 1) with
        | error e => rfl
        | ok last =>
          cases symName p.symValToName.cats (i + 1) with
          | error e => rfl
          | ok name =>
            cases mlsSidToContextCats p rest i.toInt i.toInt with
            | error e => rfl
            | ok later =>
              refine congrArg Except.ok ?_
              simp only [List.length_append, List.length_cons]
      · rw [if_neg (Ne.symm.mt same), if_neg same]
        cases symName p.symValToName.cats (i + 1) with
        | error e => rfl
        | ok name =>
          cases mlsSidToContextCats p rest i.toInt i.toInt with
          | error e => rfl
          | ok later =>
            refine congrArg Except.ok ?_
            simp only [List.length_append, List.length_cons, List.length_nil]
    · rw [if_neg gap, if_neg gap, ih]

theorem level_len : mlsComputeLevelLen p l = (mlsSidToContextLevel p l).map List.length := by
  unfold mlsComputeLevelLen mlsSidToContextLevel
  rw [cats_len]
  cases symName p.symValToName.levels l.sens with
  | error e => rfl
  | ok sens =>
    cases mlsSidToContextCats p (ebitmapPositiveBits l.cat) (-2) (-2) with
    | error e => rfl
    | ok cats =>
      change Except.ok _ = Except.ok _
      rw [List.length_append]

/-- The length that `mls_compute_context_len` computes is that of what is written. -/
theorem mls_len : mlsComputeContextLen p context = (mlsSidToContext p context).map List.length := by
  unfold mlsComputeContextLen mlsSidToContext
  by_cases mls : p.mlsEnabled
  · rw [if_neg (not_not.mpr mls), if_neg (not_not.mpr mls), level_len, level_len]
    cases mlsSidToContextLevel p context.range.low with
    | error e => rfl
    | ok low =>
      cases mlsLevelEq context.range.low context.range.high with
      | true =>
        change Except.ok _ = Except.ok _
        rw [List.length_cons, Nat.add_comm]
      | false =>
        cases mlsSidToContextLevel p context.range.high with
        | error e => rfl
        | ok high =>
          refine congrArg Except.ok ?_
          simp only [List.length_append, List.length_cons]
          omega
  · rw [if_pos mls, if_pos mls]
    rfl

end Lengths

section Levels

variable {p : Policydb} {names : Nat → Name} {limit : Nat} {bits : List Nat}

/-- A separator outside the names is in the text of a set only where the text has it. -/
theorem runText_plain {head prev : Nat} (inside : prev < limit)
    (known : ∀ b ∈ bits, b < limit) {c : U8} (apart : c ≠ comma) (apart' : c ≠ dot)
    (outside : ∀ i, i < limit → c ∉ names i) : c ∉ runText names head prev bits := by
  have close : ∀ head prev, prev < limit → c ∉ runClose names head prev := by
    intro head prev inside
    unfold runClose
    by_cases same : prev = head
    · rw [if_pos same]
      exact List.not_mem_nil
    · rw [if_neg same, List.mem_cons, not_or]
      refine ⟨?_, outside prev inside⟩
      by_cases long : prev - head > 1
      · rw [if_pos long]
        exact apart'
      · rw [if_neg long]
        exact apart
  induction bits generalizing head prev with
  | nil => exact close head prev inside
  | cons i rest ih =>
    have isKnown := known i List.mem_cons_self
    have later : c ∉ runText names i i rest :=
      ih isKnown fun b member => known b (List.mem_cons_of_mem i member)
    rw [runText]
    by_cases gap : i - prev > 1
    · rw [if_pos gap]
      simp only [List.mem_append, List.mem_cons, not_or]
      exact ⟨⟨close head prev inside, apart, outside i isKnown⟩, later⟩
    · rw [if_neg gap]
      exact ih isKnown fun b member => known b (List.mem_cons_of_mem i member)

theorem catsText_plain (known : ∀ b ∈ bits, b < limit) {c : U8} (apart : c ≠ comma)
    (apart' : c ≠ dot) (apart'' : c ≠ colon) (outside : ∀ i, i < limit → c ∉ names i) :
    c ∉ catsText names bits := by
  cases bits with
  | nil => exact List.not_mem_nil
  | cons i rest =>
    have isKnown := known i List.mem_cons_self
    have later : c ∉ runText names i i rest := runText_plain isKnown
      (fun b member => known b (List.mem_cons_of_mem i member)) apart apart' outside
    rw [catsText, List.mem_append, List.mem_cons, not_or, not_or]
    exact ⟨⟨apart'', outside i isKnown⟩, later⟩

/-- What is proved of one level: it is written, and read back as it was. -/
structure LevelText (p : Policydb) (l : MlsLevel) (text : List U8) : Prop where
  printed : mlsSidToContextLevel p l = .ok text
  read : (mlsContextToSidLevel p text).1 = .ok l
  nul : 0 ∉ text
  dash : dash ∉ text

theorem LevelText.done {p : Policydb} {l : MlsLevel} {text : List U8} (ok : LevelText p l text) :
    ∃ buffer, mlsContextToSidLevel p text = (.ok l, buffer) :=
  ⟨(mlsContextToSidLevel p text).2, Prod.ext ok.read rfl⟩

theorem level_text (named : NamedPolicy p) {l : MlsLevel} (cats : CatsOk p l.cat)
    (sens : l.sens ≠ 0) (sens' : l.sens ≤ p.pLevels.nprim) : ∃ text, LevelText p l text := by
  obtain ⟨names, catNames⟩ := named.catNames
  obtain ⟨name, hasName⟩ := named.levels.named l.sens sens sens'
  obtain ⟨levdatum, found, value⟩ := named.levels.unique l.sens name sens sens' hasName
  have plain := named.levels.plain l.sens name sens sens' hasName
  obtain ⟨sorted, members⟩ := positiveBits_spec cats.canonical
  have known : ∀ b ∈ (ebitmapPositiveBits l.cat).map BitVec.toNat, b < catLimit p :=
    fun b member => cats.known b ((members b).mp member)
  have knownBits : ∀ b ∈ ebitmapPositiveBits l.cat, b.toNat < catLimit p :=
    fun b member => known b.toNat (List.mem_map_of_mem member)
  have whole : setBits ebitmapInit ((ebitmapPositiveBits l.cat).map BitVec.toNat) = l.cat :=
    setBits_positiveBits cats.canonical
  have printed : mlsSidToContextLevel p l =
      .ok (name ++ catsText names ((ebitmapPositiveBits l.cat).map BitVec.toNat)) := by
    unfold mlsSidToContextLevel
    rw [hasName, set_printed catNames knownBits sorted]
    rfl
  refine ⟨_, printed, ?_, ?_, ?_⟩
  · cases shape : (ebitmapPositiveBits l.cat).map BitVec.toNat with
    | nil =>
      rw [shape] at whole
      unfold mlsContextToSidLevel
      rw [catsText, List.append_nil, cut_none plain.colon]
      dsimp only
      rw [cString_unterminated plain.nul, found]
      dsimp only
      have empty : ebitmapInit = l.cat := whole
      rw [value, empty]
    | cons i rest =>
      rw [shape] at whole known sorted
      rw [List.pairwise_cons] at sorted
      have read := @runs_read p names _ ebitmapInit _ catNames _ _ _
        (known i List.mem_cons_self) (Nat.le_refl i)
        (fun b member => known b (List.mem_cons_of_mem i member)) sorted.1 sorted.2
        (Nat.lt_succ_self _)
      rw [range'_single, List.singleton_append, whole] at read
      unfold mlsContextToSidLevel
      rw [catsText, List.cons_append, cut_append (by decide) plain.nul plain.colon]
      dsimp only [terminate]
      rw [found]
      dsimp only
      generalize mlsContextToSidCats p _ _ _ = done at read ⊢
      obtain ⟨result, buffer⟩ := done
      dsimp only at read ⊢
      rw [read]
      dsimp only
      rw [value]
  · rw [List.mem_append, not_or]
    exact ⟨plain.nul, catsText_plain known (by decide) (by decide) (by decide)
      fun i inside => (catNames.plain i inside).nul⟩
  · rw [List.mem_append, not_or]
    exact ⟨plain.dash, catsText_plain known (by decide) (by decide) (by decide)
      fun i inside => (catNames.plain i inside).dash⟩

end Levels

section Validity

variable {p : Policydb} {c : Context} {l : MlsLevel}

/-- What `policydb_context_isvalid` checks of each context. -/
structure ValidFields (p : Policydb) (c : Context) : Prop where
  role : c.role ≠ 0 ∧ c.role ≤ p.pRoles.nprim
  user : c.user ≠ 0 ∧ c.user ≤ p.pUsers.nprim
  type : c.type ≠ 0 ∧ c.type ≤ p.pTypes.nprim
  mls : mlsContextIsvalid p c = .ok true

theorem inRange {v nprim : U32} (ok : ¬ (v = 0 ∨ nprim < v)) : v ≠ 0 ∧ v ≤ nprim :=
  ⟨fun zero => ok (.inl zero), BitVec.not_lt.mp fun less => ok (.inr less)⟩

theorem validFields (valid : policydbContextIsvalid p c = .ok true) : ValidFields p c := by
  unfold policydbContextIsvalid at valid
  by_cases role : c.role = 0 ∨ p.pRoles.nprim < c.role
  · rw [if_pos role] at valid
    cases valid
  rw [if_neg role] at valid
  by_cases user : c.user = 0 ∨ p.pUsers.nprim < c.user
  · rw [if_pos user] at valid
    cases valid
  rw [if_neg user] at valid
  by_cases type : c.type = 0 ∨ p.pTypes.nprim < c.type
  · rw [if_pos type] at valid
    cases valid
  rw [if_neg type] at valid
  refine ⟨inRange role, inRange user, inRange type, ?_⟩
  by_cases objectR : c.role = objectRVal
  · rw [if_neg (not_not.mpr objectR)] at valid
    exact valid
  rw [if_pos objectR] at valid
  cases roleEntry : atValue p.roleValToStruct c.role with
  | error e =>
    rw [roleEntry] at valid
    cases valid
  | ok roledatum =>
    rw [roleEntry] at valid
    cases roledatum with
    | none => cases valid
    | some roledatum =>
      change (if _ then _ else _) = _ at valid
      by_cases inRole : ebitmapGetBit roledatum.types (c.type - 1).toNat
      · rw [if_pos inRole] at valid
        cases userEntry : atValue p.userValToStruct c.user with
        | error e =>
          rw [userEntry] at valid
          cases valid
        | ok usrdatum =>
          rw [userEntry] at valid
          cases usrdatum with
          | none => cases valid
          | some usrdatum =>
            change (if _ then _ else _) = _ at valid
            by_cases inUser : ebitmapGetBit usrdatum.roles (c.role - 1).toNat
            · rw [if_pos inUser] at valid
              exact valid
            · rw [if_neg inUser] at valid
              cases valid
      · rw [if_neg inRole] at valid
        cases valid

theorem validSens (valid : mlsLevelIsvalid p l = .ok true) :
    l.sens ≠ 0 ∧ l.sens ≤ p.pLevels.nprim := by
  unfold mlsLevelIsvalid at valid
  by_cases sens : l.sens = 0 ∨ p.pLevels.nprim < l.sens
  · rw [if_pos sens] at valid
    cases valid
  · exact inRange sens

/-- Under MLS both levels of a valid context are valid. -/
theorem ValidFields.levels (ok : ValidFields p c) (mls : p.mlsEnabled = true) :
    mlsLevelIsvalid p c.range.low = .ok true ∧ mlsLevelIsvalid p c.range.high = .ok true := by
  have valid := ok.mls
  unfold mlsContextIsvalid mlsRangeIsvalid at valid
  rw [if_neg (not_not.mpr mls)] at valid
  cases low : mlsLevelIsvalid p c.range.low with
  | error e =>
    rw [low] at valid
    cases valid
  | ok lowOk =>
    rw [low] at valid
    cases lowOk with
    | false => cases valid
    | true =>
      cases high : mlsLevelIsvalid p c.range.high with
      | error e =>
        rw [high] at valid
        cases valid
      | ok highOk =>
        rw [high] at valid
        cases highOk with
        | false => cases valid
        | true => exact ⟨rfl, rfl⟩

end Validity

section Whole

variable {p : Policydb} {c : Context}

/-- The context that is read back: without MLS a range is not written. -/
def written (p : Policydb) (c : Context) : Context :=
  if p.mlsEnabled then c else { c with range := contextInit.range }

theorem written_valid (valid : policydbContextIsvalid p c = .ok true) :
    policydbContextIsvalid p (written p c) = .ok true := by
  unfold written
  by_cases mls : p.mlsEnabled
  · rw [if_pos mls]
    exact valid
  · rw [if_neg mls, ← valid]
    unfold policydbContextIsvalid mlsContextIsvalid
    simp only [if_pos mls]

theorem mlsLevelEq_iff (l1 l2 : MlsLevel) : mlsLevelEq l1 l2 = true ↔ l1 = l2 := by
  cases l1
  cases l2
  simp only [mlsLevelEq, Bool.and_eq_true, beq_iff_eq, ebitmapCmp_iff, MlsLevel.mk.injEq]

/-- The range is written behind a colon and read back. -/
theorem range_text (named : NamedPolicy p) (mls : p.mlsEnabled = true) (ok : ValidFields p c)
    (low : CatsOk p c.range.low.cat) (high : CatsOk p c.range.high.cat) :
    ∃ text, mlsSidToContext p c = .ok (colon :: text) ∧
      ∀ context sidtab defSid, (mlsContextToSid p colon text context sidtab defSid).1 =
        .ok { context with range := c.range } := by
  obtain ⟨lowOk, highOk⟩ := ok.levels mls
  obtain ⟨lowText, atLow⟩ := level_text named low (validSens lowOk).1 (validSens lowOk).2
  obtain ⟨highText, atHigh⟩ := level_text named high (validSens highOk).1 (validSens highOk).2
  obtain ⟨lowBuffer, lowDone⟩ := atLow.done
  obtain ⟨highBuffer, highDone⟩ := atHigh.done
  have enabled : ¬ ¬ p.mlsEnabled = true := not_not.mpr mls
  have given : ¬ colon = (0 : U8) := by decide
  cases same : mlsLevelEq c.range.low c.range.high with
  | true =>
    have equal : c.range = ⟨c.range.low, c.range.low⟩ := by
      have levels := (mlsLevelEq_iff _ _).mp same
      generalize c.range = range at levels ⊢
      cases range
      dsimp only at levels ⊢
      rw [levels]
    refine ⟨lowText, ?_, fun context sidtab defSid => ?_⟩
    · unfold mlsSidToContext
      rw [if_neg enabled, atLow.printed, same]
      rfl
    · unfold mlsContextToSid
      rw [if_neg enabled, if_neg given, cut_none atLow.dash]
      dsimp only
      rw [lowDone, equal]
  | false =>
    refine ⟨lowText ++ dash :: highText, ?_, fun context sidtab defSid => ?_⟩
    · unfold mlsSidToContext
      rw [if_neg enabled, atLow.printed, same, atHigh.printed]
      rfl
    · unfold mlsContextToSid
      rw [if_neg enabled, if_neg given, cut_append (by decide) atLow.nul atLow.dash]
      dsimp only
      rw [lowDone]
      dsimp only [terminate]
      rw [highDone]

/-- The type and the range are read, where what is read is a valid context. -/
theorem type_read {ctx : Context} {type : Name} {typdatum : TypeDatum} {oldc : U8}
    {rest : List U8} {sidtab : Option Sidtab} {defSid : U32} {result : Context}
    (found : symtabSearch p.pTypes type = some typdatum) (notAttribute : typdatum.isAttribute = 0)
    (read : (mlsContextToSid p oldc rest { ctx with type := typdatum.value } sidtab defSid).1 =
      .ok result)
    (valid : policydbContextIsvalid p result = .ok true) :
    (stringToContextType p sidtab ctx defSid type oldc rest).1 = .ok result := by
  unfold stringToContextType
  rw [found]
  dsimp only
  rw [if_neg (not_not.mpr notAttribute)]
  generalize mlsContextToSid p oldc rest { ctx with type := typdatum.value } sidtab defSid = done
    at read ⊢
  obtain ⟨answer, buffer⟩ := done
  dsimp only at read ⊢
  rw [read]
  dsimp only
  rw [valid]

/-- The string of a context, around the text of its range. -/
theorem string_printed {user role type mls : Name} (mapped : c.str = none)
    (hasUser : symName p.symValToName.users c.user = .ok user)
    (hasRole : symName p.symValToName.roles c.role = .ok role)
    (hasType : symName p.symValToName.types c.type = .ok type)
    (text : mlsSidToContext p c = .ok mls) :
    contextStructToString p c = .ok (user ++ colon :: (role ++ colon :: (type ++ mls)),
      (user ++ colon :: (role ++ colon :: (type ++ mls))).length + 1) := by
  unfold contextStructToString
  rw [mapped]
  dsimp only
  rw [hasUser, hasRole, hasType, mls_len, text]
  refine congrArg Except.ok (Prod.ext ?_ ?_)
  · dsimp only
    simp only [List.append_assoc, List.cons_append]
  · dsimp only
    simp only [List.length_append, List.length_cons]
    omega

/-- The parser up to the type. -/
theorem front_read {user role : Name} {usrdatum : UserDatum} {roledatum : RoleDatum}
    (plainUser : Plain user) (plainRole : Plain role)
    (foundUser : symtabSearch p.pUsers user = some usrdatum) (isUser : usrdatum.value = c.user)
    (foundRole : symtabSearch p.pRoles role = some roledatum) (isRole : roledatum.value = c.role)
    (sidtab : Option Sidtab) (rest : List U8) (defSid : U32) :
    (stringToContextStruct p sidtab (user ++ colon :: (role ++ colon :: rest)) defSid).1 =
      (match cut 0 colon rest with
        | none => (stringToContextType p sidtab
            { contextInit with user := c.user, role := c.role } defSid (cString rest) 0 []).1
        | some (type, rest) => (stringToContextType p sidtab
            { contextInit with user := c.user, role := c.role } defSid type colon rest).1) := by
  unfold stringToContextStruct
  rw [cut_append (by decide) plainUser.nul plainUser.colon]
  dsimp only [terminate]
  rw [foundUser]
  dsimp only
  rw [cut_append (by decide) plainRole.nul plainRole.colon]
  dsimp only
  rw [foundRole, isUser]
  dsimp only
  rw [isRole]
  cases cut 0 colon rest with
  | none => rfl
  | some parts => rfl

/-- The string that is written for a mapped context is read back as the context. -/
theorem string_read_back (named : NamedPolicy p) (mapped : c.str = none)
    (valid : policydbContextIsvalid p c = .ok true) (notAttribute : NotAttribute p c.type)
    (cats : p.mlsEnabled = true → CatsOk p c.range.low.cat ∧ CatsOk p c.range.high.cat) :
    ∃ s, contextStructToString p c = .ok (s, s.length + 1) ∧
      ∀ sidtab defSid, (stringToContextStruct p sidtab s defSid).1 = .ok (written p c) := by
  have fields := validFields valid
  obtain ⟨user, hasUser⟩ := named.users.named _ fields.user.1 fields.user.2
  obtain ⟨role, hasRole⟩ := named.roles.named _ fields.role.1 fields.role.2
  obtain ⟨type, hasType⟩ := named.types.named _ fields.type.1 fields.type.2
  obtain ⟨usrdatum, foundUser, isUser⟩ :=
    named.users.unique _ _ fields.user.1 fields.user.2 hasUser
  obtain ⟨roledatum, foundRole, isRole⟩ :=
    named.roles.unique _ _ fields.role.1 fields.role.2 hasRole
  obtain ⟨typdatum, foundType, isType⟩ :=
    named.types.unique _ _ fields.type.1 fields.type.2 hasType
  have plainUser := named.users.plain _ _ fields.user.1 fields.user.2 hasUser
  have plainRole := named.roles.plain _ _ fields.role.1 fields.role.2 hasRole
  have plainType := named.types.plain _ _ fields.type.1 fields.type.2 hasType
  have isNotAttribute := notAttribute type typdatum hasType foundType
  have stillValid := written_valid valid
  have readFront := front_read plainUser plainRole foundUser isUser foundRole isRole
  by_cases mls : p.mlsEnabled = true
  · obtain ⟨low, high⟩ := cats mls
    obtain ⟨text, rangePrinted, rangeRead⟩ := range_text named mls fields low high
    refine ⟨_, string_printed mapped hasUser hasRole hasType rangePrinted, fun sidtab defSid => ?_⟩
    rw [readFront, cut_append (by decide) plainType.nul plainType.colon]
    dsimp only
    refine type_read foundType isNotAttribute ?_ stillValid
    rw [rangeRead, isType]
    unfold written
    rw [if_pos mls]
    refine congrArg Except.ok ?_
    cases c
    rw [Context.mk.injEq]
    exact ⟨rfl, rfl, rfl, rfl, mapped.symm⟩
  · have rangePrinted : mlsSidToContext p c = .ok [] := by
      unfold mlsSidToContext
      rw [if_pos mls]
    refine ⟨_, string_printed mapped hasUser hasRole hasType rangePrinted, fun sidtab defSid => ?_⟩
    rw [readFront, List.append_nil, cut_none plainType.colon]
    dsimp only
    rw [cString_unterminated plainType.nul]
    refine type_read foundType isNotAttribute ?_ stillValid
    unfold mlsContextToSid written
    rw [if_pos mls, if_neg (fun both => both.1 rfl), if_neg mls, isType]
    refine congrArg Except.ok ?_
    cases c
    rw [Context.mk.injEq]
    exact ⟨rfl, rfl, rfl, rfl, mapped.symm⟩

/-- Two contexts with the same fields; of category sets the bits are compared. -/
structure SameFields (c d : Context) : Prop where
  user : d.user = c.user
  role : d.role = c.role
  type : d.type = c.type
  lowSens : d.range.low.sens = c.range.low.sens
  highSens : d.range.high.sens = c.range.high.sens
  lowCat : ∀ b, ebitmapGetBit d.range.low.cat b = ebitmapGetBit c.range.low.cat b
  highCat : ∀ b, ebitmapGetBit d.range.high.cat b = ebitmapGetBit c.range.high.cat b

theorem SameFields.refl (c : Context) : SameFields c c :=
  ⟨rfl, rfl, rfl, rfl, rfl, fun _ => rfl, fun _ => rfl⟩

/-- `string_to_context_struct` reads what `context_struct_to_string` writes as a context with
the fields of the old one. -/
def ReadsBack (p : Policydb) (c : Context) : Prop :=
  ∃ s len, contextStructToString p c = .ok (s, len) ∧ ∀ sidtab defSid, ∃ d,
    (stringToContextStruct p sidtab s defSid).1 = .ok d ∧ SameFields c d

end Whole

section SmallPolicies

variable {δ : Type}

/-- The names of a policy as a check. -/
def namesCheck (table : Symtab δ) (names : List (Option Name)) (value : δ → U32) : Bool :=
  (List.range table.nprim.toNat).all fun i =>
    match symName names (BitVec.ofNat 32 (i + 1)) with
    | .error _ => false
    | .ok name =>
      [0, colon, comma, dash, dot].all (!name.contains ·) &&
        match symtabSearch table name with
        | none => false
        | some datum => value datum == BitVec.ofNat 32 (i + 1)

theorem names_of_check {table : Symtab δ} {names : List (Option Name)} {value : δ → U32}
    (checked : namesCheck table names value = true) : Names table names value := by
  have each : ∀ v, v ≠ 0 → v ≤ table.nprim → ∃ name datum, symName names v = .ok name ∧
      symtabSearch table name = some datum ∧ value datum = v ∧ Plain name := by
    intro v positive inside
    have nonzero : v.toNat ≠ 0 := fun zero => positive (BitVec.eq_of_toNat_eq zero)
    have small : v.toNat - 1 < table.nprim.toNat := by
      rw [BitVec.le_def] at inside
      omega
    have back : BitVec.ofNat 32 (v.toNat - 1 + 1) = v := by
      rw [Nat.sub_add_cancel (by omega), BitVec.ofNat_toNat, BitVec.setWidth_eq]
    have here := List.all_eq_true.mp checked _ (List.mem_range.mpr small)
    rw [back] at here
    cases found : symName names v with
    | error e =>
      rw [found] at here
      cases here
    | ok name =>
      rw [found] at here
      dsimp only at here
      rw [Bool.and_eq_true] at here
      obtain ⟨plain, searched⟩ := here
      cases search : symtabSearch table name with
      | none =>
        rw [search] at searched
        cases searched
      | some datum =>
        rw [search] at searched
        simp only [List.all_cons, List.all_nil, Bool.and_eq_true, Bool.not_eq_true',
          List.contains_eq_mem, decide_eq_false_iff_not] at plain
        obtain ⟨nul, colon, comma, dash, dot, -⟩ := plain
        exact ⟨name, datum, rfl, search, beq_iff_eq.mp searched, nul, colon, comma, dash, dot⟩
  refine ⟨fun v positive inside => ?_, fun v name positive inside found => ?_,
    fun v name positive inside found => ?_⟩
  · obtain ⟨name, datum, found, -⟩ := each v positive inside
    exact ⟨name, found⟩
  · obtain ⟨name', datum, found', search, value, -⟩ := each v positive inside
    rw [found] at found'
    cases found'
    exact ⟨datum, search, value⟩
  · obtain ⟨name', datum, found', -, -, plain⟩ := each v positive inside
    rw [found] at found'
    cases found'
    exact plain

/-- A table of names and data with one slot. -/
def oneSlot (entries : List (Name × δ)) : Symtab δ :=
  { table := { htable := [entries], nel := entries.length }, nprim := BitVec.ofNat 32 entries.length }

/-- A policy with the user `u`, the roles `object_r` and `r`, the type `t`, the sensitivity `s0`
with some categories, and the categories given. -/
def smallPolicy (mlsEnabled : Bool) (range : MlsRange) (cats : List Name) : Policydb :=
  let one := ebitmapSetBit ebitmapInit 0 true
  let usrdatum : UserDatum :=
    { value := 1, bounds := 0, roles := ebitmapSetBit one 1 true, range, dfltlevel := range.low }
  let roledatum (value : U32) : RoleDatum := { value, bounds := 0, dominates := one, types := one }
  let levdatum : LevelDatum := { level := range.high, isalias := 0 }
  let user := cstr ['u']
  let role := cstr ['r']
  let type := cstr ['t']
  let sens := cstr ['s', '0']
  { policydbInit with
    mlsEnabled
    pUsers := oneSlot [(user, usrdatum)]
    pRoles := oneSlot [(objectR, roledatum 1), (role, roledatum 2)]
    pTypes := oneSlot [(type, { value := 1, bounds := 0, primary := 1, isAttribute := 0 })]
    pLevels := oneSlot [(sens, levdatum)]
    pCats := oneSlot (cats.zipIdx.map fun cat =>
      (cat.1, { value := BitVec.ofNat 32 (cat.2 + 1), isalias := 0 }))
    symValToName := { policydbInit.symValToName with
      users := [some user], roles := [some objectR, some role], types := [some type]
      levels := [some sens], cats := cats.map some }
    userValToStruct := [some usrdatum]
    roleValToStruct := [some (roledatum 1), some (roledatum 2)] }

def policyOk (p : Policydb) : Bool :=
  namesCheck p.pUsers p.symValToName.users UserDatum.value &&
    namesCheck p.pRoles p.symValToName.roles RoleDatum.value &&
    namesCheck p.pTypes p.symValToName.types TypeDatum.value &&
    namesCheck p.pLevels p.symValToName.levels (fun levdatum => levdatum.level.sens) &&
    namesCheck p.pCats p.symValToName.cats CatDatum.value

theorem named_of_ok {p : Policydb} (ok : policyOk p = true) : NamedPolicy p := by
  unfold policyOk at ok
  simp only [Bool.and_eq_true] at ok
  obtain ⟨⟨⟨⟨users, roles⟩, types⟩, levels⟩, cats⟩ := ok
  exact ⟨names_of_check users, names_of_check roles, names_of_check types, names_of_check levels,
    names_of_check cats⟩

/-- Sensitivity `s0` with categories. -/
def s0 (bits : List Nat) : MlsLevel := { sens := 1, cat := setBits ebitmapInit bits }

def c0c1 : List Name := [cstr ['c', '0'], cstr ['c', '1']]

def labelled (role : U32) (low high : MlsLevel) : Context :=
  { user := 1, role, type := 1, range := ⟨low, high⟩, str := none }

theorem smallPolicy_notAttribute (mlsEnabled : Bool) (range : MlsRange) (cats : List Name) :
    NotAttribute (smallPolicy mlsEnabled range cats) 1 := by
  intro name typdatum hasName found
  let plainType : TypeDatum := { value := 1, bounds := 0, primary := 1, isAttribute := 0 }
  have search : symtabSearch (oneSlot [(cstr ['t'], plainType)]) (cstr ['t']) = some plainType := by
    decide
  cases hasName
  have same : plainType = typdatum := Option.some.inj (search.symm.trans found)
  rw [← same]

theorem smallPolicy_catsOk {mlsEnabled : Bool} {range : MlsRange} {bits : List Nat}
    (small : ∀ b ∈ bits, b < 2) : CatsOk (smallPolicy mlsEnabled range c0c1) (s0 bits).cat := by
  have each : ∀ b ∈ bits, b - b % ebitmapSize + ebitmapSize < 2 ^ 32 := by
    intro b member
    have := small b member
    unfold ebitmapSize
    omega
  obtain ⟨canonical, members⟩ := setBits_canonical init_canonical each
  refine ⟨canonical, fun b inside => ?_⟩
  rcases (members b).mp inside with given | none
  · exact small b given
  · exact absurd none init_bits

/-- A policy with MLS whose user has the range from `s0` to `s0:c0,c1`. -/
def mlsPolicy : Policydb := smallPolicy true ⟨s0 [], s0 [0, 1]⟩ c0c1

/-- A context of the user with the whole range. -/
def wholeRange : Context := labelled 2 (s0 []) (s0 [0, 1])

/-- The category set `c0` in a bitmap with room for more, as an image can have it. -/
def loose : MlsLevel := { s0 [0] with cat := { (s0 [0]).cat with highbit := 768 } }

end SmallPolicies

end Ksrc.Guarantees.ContextRoundTrip

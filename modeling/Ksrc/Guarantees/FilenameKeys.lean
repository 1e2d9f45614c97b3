import Ksrc.Guarantees.EbitmapSets
import Ksrc.Guarantees.OrderedChains
import Ksrc.Guarantees.PolicyImages
import Ksrc.Guarantees.StringOrder
import Ksrc.Source.PolicydbRead

/-!
# The keys of file name transitions

Source: `security/selinux/ss/policydb.c` (`filenametr_hash`, `filenametr_cmp`,
`policydb_filenametr_search`, `filename_trans_read_helper`), `hashtab.h`, `ebitmap.c`.

The comparison takes a difference of target types as an `int`, so it is an order only within a half
circle of target types, and the end of the bitmap of target types is computed in 32 bits, so the types
of the last block are past it. The keys are found just where neither matters.
-/
namespace Ksrc.Guarantees.FilenameKeys

open Library Source EbitmapBits EbitmapFiles
  EbitmapSets EbitmapWalks OrderedChains
  PolicyImages StringOrder

section Comparison

variable {base a b : U32} {k k1 k2 : FilenameTransKey}

/-- The distance of a target type from a base, on the circle of 2^32. -/
def distance (base : U32) (k : FilenameTransKey) : Nat := (k.ttype - base).toNat

/-- A target type within a half circle from the base. -/
def Near (base : U32) (k : FilenameTransKey) : Prop := distance base k < 2 ^ 31

/-- A key as its distance, its class and the bytes of its name. -/
def code (base : U32) (k : FilenameTransKey) : List Nat :=
  distance base k :: k.tclass.toNat :: k.name.map BitVec.toNat

theorem diffInt_near (one : Near base k1) (other : Near base k2) :
    diffInt k1.ttype k2.ttype = (distance base k1 : Int) - distance base k2 := by
  unfold Near distance at *
  unfold diffInt
  simp only [BitVec.toInt_eq_toNat_cond, BitVec.toNat_sub] at *
  omega

theorem diffInt_zero : diffInt a b = 0 ↔ a = b := by
  unfold diffInt
  rw [← BitVec.toNat_inj]
  simp only [BitVec.toInt_eq_toNat_cond, BitVec.toNat_sub]
  omega

theorem distance_inj (same : distance base k1 = distance base k2) : k1.ttype = k2.ttype := by
  unfold distance at same
  rw [← BitVec.toNat_inj]
  simp only [BitVec.toNat_sub] at same
  omega

/-- Just equal keys compare as equal. -/
theorem filenametrCmp_zero : filenametrCmp k1 k2 = 0 ↔ k1 = k2 := by
  obtain ⟨ttype1, tclass1, name1⟩ := k1
  obtain ⟨ttype2, tclass2, name2⟩ := k2
  have types := @diffInt_zero ttype1 ttype2
  have classes : (tclass1.toNat : Int) - tclass2.toNat = 0 ↔ tclass1 = tclass2 := by
    rw [← BitVec.toNat_inj]
    omega
  unfold filenametrCmp
  simp only [FilenameTransKey.mk.injEq]
  split
  · rename_i apart
    rw [ne_eq, types] at apart
    exact iff_of_false (fun zero => apart (types.mp zero)) fun same => apart same.1
  rename_i sameType
  rw [not_not, types] at sameType
  split
  · rename_i apart
    rw [ne_eq, classes] at apart
    exact iff_of_false (fun zero => apart (classes.mp zero)) fun same => apart same.2.1
  rename_i sameClass
  rw [not_not, classes] at sameClass
  rw [strcmp_zero]
  exact ⟨fun same => ⟨sameType, sameClass, same⟩, fun same => same.2.2⟩

theorem filenametrCmp_neg (one : Near base k1) (other : Near base k2) :
    filenametrCmp k1 k2 < 0 ↔ code base k1 < code base k2 := by
  have types := diffInt_near one other
  unfold filenametrCmp code
  simp only [List.cons_lt_cons_iff]
  split
  · omega
  split
  · omega
  · have sameDistance : distance base k1 = distance base k2 := by omega
    have sameClass : k1.tclass.toNat = k2.tclass.toNat := by omega
    rw [strcmp_neg, sameDistance, sameClass]
    simp only [lt_self_iff_false, false_or, true_and]

/-- Within a half circle the comparison is an order. -/
theorem filenametrCmp_agrees (base : U32) : Agrees filenametrCmp (code base) (Near base) := by
  constructor
  · exact filenametrCmp_neg
  · exact filenametrCmp_zero
  · intro a b _ _ same
    unfold code at same
    simp only [List.cons.injEq, BitVec.toNat_inj, text_inj] at same
    obtain ⟨sameDistance, sameClass, sameName⟩ := same
    cases a
    cases b
    simp only [FilenameTransKey.mk.injEq]
    exact ⟨distance_inj sameDistance, sameClass, sameName⟩

/-- A key that does not come before another has a target type within a half circle from it. -/
theorem near_of_cmp (positive : 0 < filenametrCmp k1 k2) : Near k2.ttype k1 := by
  have cases : diffInt k1.ttype k2.ttype < 0 → filenametrCmp k1 k2 < 0 := by
    intro negative
    unfold filenametrCmp
    rw [if_pos negative.ne]
    exact negative
  unfold Near distance
  unfold diffInt at cases
  simp only [BitVec.toInt_eq_toNat_cond] at cases
  omega

end Comparison

section Filter

variable {e : Ebitmap} {bits : List Nat} {b : Nat}

/-- The first target type whose block ends past the words. -/
def lastBlock : Nat := 2 ^ 32 - 256

/-- A bitmap of some bits, with its end in 32 bits. -/
structure FilterRead (e : Ebitmap) (bits : List Nat) : Prop where
  nodes : NodesFrom 0 e.node
  high : e.highbit.toNat = endOf 0 e.node % 2 ^ 32
  bits : ∀ x, InBitmap e x ↔ x ∈ bits

theorem filterRead_init : FilterRead ebitmapInit [] := by
  constructor
  · trivial
  · rfl
  · intro x
    exact iff_of_false init_bits List.not_mem_nil

theorem FilterRead.set (read : FilterRead e bits) (small : b < 2 ^ 32) :
    FilterRead (ebitmapSetBit e b true) (bits ++ [b]) := by
  have step := setBitNodes_set small read.nodes (Nat.zero_mod _) (Nat.zero_le b)
  unfold ebitmapSetBit
  rw [if_pos rfl]
  constructor
  · exact step.ok
  · rw [step.ends]
    dsimp only
    split
    · rw [BitVec.toNat_ofNat]
    · exact read.high
  · intro x
    rw [List.mem_append, List.mem_singleton, or_comm, ← read.bits]
    exact step.bits x

/-- The filter tells its bits just where none is in the last block. -/
theorem FilterRead.tells (read : FilterRead e bits) (words : ∀ b ∈ bits, b < 2 ^ 32) :
    (∀ b ∈ bits, ebitmapGetBit e b = true) ↔ ∀ b ∈ bits, b < lastBlock := by
  constructor
  · intro found b member
    by_contra last
    have ends : endOf 0 e.node = lastBlock + ebitmapSize := by
      have after := read.nodes.room ((read.bits b).mpr member)
      obtain ⟨c, inside, same⟩ := endOf_last read.nodes (by
        rintro empty
        rw [empty] at after
        exact absurd after (by unfold ebitmapSize endOf; omega))
      have below := words c ((read.bits c).mp inside)
      unfold lastBlock ebitmapSize at *
      omega
    have high := read.high
    have set := found b member
    unfold ebitmapGetBit at set
    rw [if_pos] at set
    · exact Bool.false_ne_true set
    · rw [high, ends]
      unfold lastBlock ebitmapSize at *
      omega
  · intro below
    have fits : endOf 0 e.node < 2 ^ 32 := by
      by_cases empty : e.node = []
      · rw [empty]
        exact Nat.two_pow_pos 32
      · obtain ⟨c, inside, same⟩ := endOf_last read.nodes empty
        have := below c ((read.bits c).mp inside)
        unfold lastBlock ebitmapSize at *
        omega
    have ok : Canonical e := ⟨read.nodes, read.high.trans (Nat.mod_eq_of_lt fits)⟩
    intro b member
    rw [getBit_iff (Canonical.built ok)]
    exact (read.bits b).mpr member

end Filter

section Records

variable {st st' : FilenameTrans} {record : FilenameTransKey × List FilenameTransDatum}
  {records : List (FilenameTransKey × List FilenameTransDatum)} {bytes rest : List U8}

/-- A record of `filename_trans_read_helper`: a key and its data. -/
def filenameTransRecord : PolicyReader (FilenameTransKey × List FilenameTransDatum) := do
  let len ← nextU32
  let name ← strRead len
  let ttype ← nextU32
  let tclass ← nextU32
  let ndatum ← nextU32
  ByteReader.require (.err .ENOENT) (ndatum ≠ 0)
  let data ← ByteReader.several filenametrReadDatum ndatum.toNat
  pure ({ ttype, tclass := tclass.truncate 16, name }, data)

/-- What `filename_trans_read_helper` does with a record. -/
def filenametrAdd (st : FilenameTrans) (record : FilenameTransKey × List FilenameTransDatum) :
    Except Fault FilenameTrans :=
  match hashtabInsert filenametrKeyParams st.1 record.1 record.2 with
  | .error e => .error e
  | .ok table => .ok (table, ebitmapSetBit st.2 record.1.ttype.toNat true)

theorem filenameTransReadHelper_eq (st : FilenameTrans) : filenameTransReadHelper st =
    filenameTransRecord >>= fun record => ByteReader.lift (filenametrAdd st record) := by
  have added (key : FilenameTransKey) (data : List FilenameTransDatum) :
      (ByteReader.lift (hashtabInsert filenametrKeyParams st.1 key data) >>= fun table =>
        (pure (table, ebitmapSetBit st.2 key.ttype.toNat true) : PolicyReader FilenameTrans)) =
      (pure (key, data) : PolicyReader _) >>= fun record => ByteReader.lift (filenametrAdd st record) := by
    funext s
    simp only [bind, ByteReader.andThen, ByteReader.lift, pure, ByteReader.ret, filenametrAdd]
    cases hashtabInsert filenametrKeyParams st.1 key data with
    | error e => rfl
    | ok table => rfl
  unfold filenameTransReadHelper filenameTransRecord
  simp only [ByteReader.bind_assoc, ← added]

theorem readHelper_ok (read : filenameTransReadHelper st bytes = .ok (st', rest)) :
    ∃ record, filenameTransRecord bytes = .ok (record, rest) ∧ filenametrAdd st record = .ok st' := by
  rw [filenameTransReadHelper_eq, ByteReader.bind_ok] at read
  obtain ⟨record, _, taken, added⟩ := read
  obtain ⟨done, rfl⟩ := ByteReader.lift_ok.mp added
  exact ⟨record, taken, done⟩

theorem readHelper_error {fault : Fault} (taken : filenameTransRecord bytes = .ok (record, rest))
    (failed : filenametrAdd st record = .error fault) : filenameTransReadHelper st bytes = .error fault := by
  rw [filenameTransReadHelper_eq]
  simp only [bind, ByteReader.andThen, ByteReader.lift, taken, failed]

theorem filenametrAdd_ok (added : filenametrAdd st record = .ok st') :
    Inserted filenametrKeyParams st.1 st'.1 record.1 record.2 ∧
      st'.2 = ebitmapSetBit st.2 record.1.ttype.toNat true := by
  unfold filenametrAdd at added
  split at added
  · cases added
  · rename_i inserted
    cases added
    exact ⟨hashtabInsert_inserted inserted, rfl⟩

/-- The slot of a key. -/
def slotOf (h : Hashtab FilenameTransKey (List FilenameTransDatum)) (k : FilenameTransKey) : Nat :=
  hashtabSlot filenametrKeyParams h k

/-- The state after some records, from a fresh table. -/
structure RecordsRead (table : Hashtab FilenameTransKey (List FilenameTransDatum)) (st : FilenameTrans)
    (records : List (FilenameTransKey × List FilenameTransDatum)) : Prop where
  size : st.1.size = table.size
  some : records ≠ [] → table.size ≠ 0
  placed : Placed filenametrKeyParams st.1 records
  filter : FilterRead st.2 (records.map (·.1.ttype.toNat))
  sorted : ∀ base : Nat → U32, (∀ r ∈ records, Near (base (slotOf table r.1)) r.1) →
    ChainsSorted (fun i => code (base i)) st.1 ∧ (records.map Prod.fst).Nodup

variable {table : Hashtab FilenameTransKey (List FilenameTransDatum)} {base : Nat → U32}

theorem RecordsRead.slot (read : RecordsRead table st records) (k : FilenameTransKey) :
    hashtabSlot filenametrKeyParams st.1 k = slotOf table k :=
  hashtabSlot_size read.size k

theorem recordsRead_init {nel : U32} (made : hashtabInit nel = .ok table) :
    RecordsRead table (table, ebitmapInit) [] := by
  have placed := @placed_init _ _ filenametrKeyParams _ _ made
  constructor
  · rfl
  · exact fun some => absurd rfl some
  · exact placed
  · exact filterRead_init
  · intro base _
    refine ⟨fun i => List.pairwise_iff_forall_sublist.mpr fun {a b} sub => ?_, List.nodup_nil⟩
    have member := placed.mem_chain.mp (sub.subset List.mem_cons_self)
    exact absurd member.1 List.not_mem_nil

/-- In a table in order, a key that is let in was not there. -/
theorem RecordsRead.fresh (read : RecordsRead table st records)
    (near : ∀ r ∈ records, Near (base (slotOf table r.1)) r.1)
    (nearNew : Near (base (slotOf table record.1)) record.1)
    (sorted : ChainsSorted (fun i => code (base i)) st.1)
    (step : Inserted filenametrKeyParams st.1 st'.1 record.1 record.2) :
    record.1 ∉ records.map Prod.fst := by
  intro old
  obtain ⟨⟨key, datum⟩, member, same⟩ := List.mem_map.mp old
  subst same
  have fits : ∀ e ∈ records, Near (base (hashtabSlot filenametrKeyParams st.1 e.1)) e.1 := by
    simpa only [read.slot] using near
  have fit : Near (base (hashtabSlot filenametrKeyParams st.1 record.1)) record.1 := by
    rw [read.slot]
    exact nearNew
  have found := (search_iff (fun i => filenametrCmp_agrees (base i)) read.placed fits fit sorted
    step.some).mpr member
  unfold hashtabSearch at found
  rw [if_neg step.some] at found
  have link := step.link
  rw [chainInsert_exists found] at link
  cases link

theorem RecordsRead.add (read : RecordsRead table st records)
    (added : filenametrAdd st record = .ok st') : RecordsRead table st' (records ++ [record]) := by
  obtain ⟨step, filter⟩ := filenametrAdd_ok added
  constructor
  · exact step.size.trans read.size
  · intro _
    rw [← read.size]
    exact step.some
  · exact read.placed.insert step
  · rw [filter, List.map_append]
    exact read.filter.set record.1.ttype.isLt
  · intro base near
    obtain ⟨nearOld, nearNew⟩ := List.forall_mem_append.mp near
    have nearRecord := nearNew record List.mem_cons_self
    obtain ⟨sorted, nodup⟩ := read.sorted base nearOld
    constructor
    · refine ChainsSorted.insert (fun i => filenametrCmp_agrees (base i)) read.placed ?_ ?_ sorted step
      · simpa only [read.slot] using nearOld
      · rw [read.slot]
        exact nearRecord
    · rw [List.map_append, List.map_singleton]
      refine List.nodup_append.mpr ⟨nodup, List.nodup_singleton _, ?_⟩
      rintro key old _ new rfl
      rw [List.mem_singleton.mp new] at old
      exact read.fresh nearOld nearRecord sorted step old

/-- The loop of `filename_trans_read`. -/
theorem recordsRead_loop {nel : U32} {n : Nat} (made : hashtabInit nel = .ok table)
    (read : ByteReader.times filenameTransReadHelper n (table, ebitmapInit) bytes = .ok (st, rest)) :
    ∃ records, ByteReader.several filenameTransRecord n bytes = .ok (records, rest) ∧
      RecordsRead table st records := by
  refine ByteReader.times_several (RecordsRead table) ?_ (recordsRead_init made) read
  intro st bytes st' rest records before once
  obtain ⟨record, taken, added⟩ := readHelper_ok once
  exact ⟨record, taken, before.add added⟩

end Records

section Lookup

variable {table : Hashtab FilenameTransKey (List FilenameTransDatum)} {st : FilenameTrans}
  {records : List (FilenameTransKey × List FilenameTransDatum)} {bytes rest : List U8}

/-- The lookup of `filename_compute_type` finds the data of a key. -/
def Found (st : FilenameTrans) (key : FilenameTransKey) (data : List FilenameTransDatum) : Prop :=
  ebitmapGetBit st.2 key.ttype.toNat = true ∧ hashtabSearch filenametrKeyParams st.1 key = some data

/-- No key is lost, none is let in twice and no other is found. -/
structure KeysFound (st : FilenameTrans) (records : List (FilenameTransKey × List FilenameTransDatum)) :
    Prop where
  distinct : (records.map Prod.fst).Nodup
  found : ∀ r ∈ records, Found st r.1 r.2
  repeated : ∀ record ∈ records, ∀ bytes data rest,
    filenameTransRecord bytes = .ok ((record.1, data), rest) →
    filenameTransReadHelper st bytes = .error (.err .EEXIST)
  only : ∀ key data, hashtabSearch filenametrKeyParams st.1 key = some data → (key, data) ∈ records

/-- No target type is in the last block of the bitmap, and those of a chain are within a half circle. -/
def KeysOrdered (table : Hashtab FilenameTransKey (List FilenameTransDatum))
    (keys : List FilenameTransKey) : Prop :=
  (∀ k ∈ keys, k.ttype.toNat < lastBlock) ∧
    ∀ i, ∃ base, ∀ k ∈ keys, slotOf table k = i → Near base k

/-- A key whose target type is the base. -/
theorem near_self (k : FilenameTransKey) : Near k.ttype k := by
  unfold Near distance
  rw [BitVec.sub_self]
  decide

/-- Where each key of a chain is found, the first one is a base. -/
theorem near_of_found (read : RecordsRead table st records) (all : KeysFound st records) (i : Nat) :
    ∃ base, ∀ k ∈ records.map Prod.fst, slotOf table k = i → Near base k := by
  have onChain : ∀ k ∈ records.map Prod.fst, slotOf table k = i →
      ∃ data, (k, data) ∈ st.1.htable.getD i [] ∧
        hashtabChainSearch filenametrCmp k (st.1.htable.getD i []) = some data := by
    intro k member here
    obtain ⟨⟨key, data⟩, record, rfl⟩ := List.mem_map.mp member
    rw [← read.slot] at here
    have found := (all.found _ record).2
    unfold hashtabSearch at found
    split at found
    · cases found
    · rw [here] at found
      exact ⟨data, read.placed.mem_chain.mpr ⟨record, here⟩, found⟩
  have once := read.placed.chain_nodup all.distinct i
  cases chain : st.1.htable.getD i [] with
  | nil =>
    refine ⟨0, fun k member here => ?_⟩
    obtain ⟨data, absurdity, -⟩ := onChain k member here
    rw [chain] at absurdity
    cases absurdity
  | cons first tail =>
    refine ⟨first.1.ttype, fun k member here => ?_⟩
    obtain ⟨data, there, found⟩ := onChain k member here
    rw [chain] at there found once
    rcases List.mem_cons.mp there with rfl | later
    · exact near_self k
    · obtain ⟨before, after, split⟩ := List.append_of_mem later
      subst split
      rw [← List.cons_append] at found once
      rw [List.map_append, List.map_cons] at once
      have apart : ∀ e ∈ first :: before, e.1 ≠ k := fun e early same =>
        List.nodup_append.mp once |>.2.2 e.1 (List.mem_map_of_mem early) k List.mem_cons_self same
      have passes := chainSearch_passes filenametrCmp_zero apart found
      exact near_of_cmp (passes first List.mem_cons_self)

/-- A table for the most keys there are words for has no chains at all. -/
theorem hashtabInit_most (made : hashtabInit (0xffffffff : U32) = .ok table) : table.size = 0 := by
  have none : hashtabComputeSize (0xffffffff : U32) = 0 := by decide
  unfold hashtabInit at made
  simp only [none] at made
  cases made
  rfl

/-- There is room for one more key. -/
theorem RecordsRead.room {nel : U32} (read : RecordsRead table st records)
    (made : hashtabInit nel = .ok table) (few : records.length ≤ nel.toNat) :
    st.1.nel ≠ hashtabMaxNodes := by
  rw [read.placed.count]
  intro full
  have most : nel = 0xffffffff := by
    apply BitVec.eq_of_toNat_eq
    have := nel.isLt
    unfold hashtabMaxNodes at full
    simp only [BitVec.reduceToNat]
    omega
  subst most
  refine read.some ?_ (hashtabInit_most made)
  rintro rfl
  cases full

theorem RecordsRead.filter_iff (read : RecordsRead table st records) :
    (∀ r ∈ records, ebitmapGetBit st.2 r.1.ttype.toNat = true) ↔
      ∀ k ∈ records.map Prod.fst, k.ttype.toNat < lastBlock := by
  have tells := read.filter.tells (by
    intro b inside
    obtain ⟨r, -, rfl⟩ := List.mem_map.mp inside
    exact r.1.ttype.isLt)
  simpa only [List.forall_mem_map] using tells

theorem keysFound_of_ordered (read : RecordsRead table st records) (room : st.1.nel ≠ hashtabMaxNodes)
    (ordered : KeysOrdered table (records.map Prod.fst)) : KeysFound st records := by
  obtain ⟨below, bases⟩ := ordered
  choose base near using bases
  have nearAll : ∀ r ∈ records, Near (base (slotOf table r.1)) r.1 := fun r member =>
    near _ _ (List.mem_map_of_mem member) rfl
  obtain ⟨sorted, distinct⟩ := read.sorted base nearAll
  have fits : ∀ e ∈ records, Near (base (hashtabSlot filenametrKeyParams st.1 e.1)) e.1 := by
    simpa only [read.slot] using nearAll
  have searches : ∀ r ∈ records, hashtabSearch filenametrKeyParams st.1 r.1 = some r.2 := by
    intro r member
    have some : st.1.size ≠ 0 := by
      rw [read.size]
      exact read.some (List.ne_nil_of_mem member)
    exact (search_iff (fun i => filenametrCmp_agrees (base i)) read.placed fits (fits r member) sorted
      some).mpr member
  constructor
  · exact distinct
  · intro r member
    exact ⟨read.filter_iff.mpr below r member, searches r member⟩
  · intro record member bytes data rest taken
    refine readHelper_error taken ?_
    unfold filenametrAdd
    rw [insert_exists room (searches record member)]
  · intro key data found
    exact search_mem filenametrCmp_zero read.placed found

/-- The keys of file name transitions are found just where no target type is in the last block of the
bitmap and those of each chain are within a half circle. -/
theorem keys_found_iff {nel : U32} {n : Nat} (made : hashtabInit nel = .ok table) (few : n ≤ nel.toNat)
    (read : ByteReader.times filenameTransReadHelper n (table, ebitmapInit) bytes = .ok (st, rest)) :
    ∃ records, ByteReader.several filenameTransRecord n bytes = .ok (records, rest) ∧
      (KeysFound st records ↔ KeysOrdered table (records.map Prod.fst)) := by
  obtain ⟨records, taken, after⟩ := recordsRead_loop made read
  refine ⟨records, taken, fun all => ⟨?_, near_of_found after all⟩, fun ordered => ?_⟩
  · exact after.filter_iff.mp fun r member => (all.found r member).1
  · refine keysFound_of_ordered after (after.room made ?_) ordered
    rw [ByteReader.several_length taken]
    exact few

end Lookup

section HalfCircle

/-- A key with one datum, for no source type. -/
def keyBytes (ttype otype : Nat) (name : Name) : List U8 :=
  word name.length ++ name ++ word ttype ++ word 1 ++ word 1 ++ emptyBitmap ++ word otype

def emptyTable : Hashtab FilenameTransKey (List FilenameTransDatum) := { htable := [[], []], nel := 0 }

/-- Two keys of one chain, with target types a half circle apart. -/
def apartKeys : List U8 := keyBytes 0x80000001 5 [97] ++ keyBytes 1 6 [97]

def farKey : FilenameTransKey := { ttype := 0x80000001, tclass := 1, name := [97] }

/-- Two keys next to each other. -/
def nearKeys : List U8 := keyBytes 3 5 [97] ++ keyBytes 1 6 [97]

theorem keys_found_iff_near : ∃ st records rest,
    ByteReader.times filenameTransReadHelper 2 (emptyTable, ebitmapInit) nearKeys = .ok (st, rest) ∧
      ByteReader.several filenameTransRecord 2 nearKeys = .ok (records, rest) ∧
      (KeysFound st records ↔ KeysOrdered emptyTable (records.map Prod.fst)) := by
  have reads : (ByteReader.times filenameTransReadHelper 2 (emptyTable, ebitmapInit)
      nearKeys).toOption.isSome = true := by
    decide
  cases read : ByteReader.times filenameTransReadHelper 2 (emptyTable, ebitmapInit) nearKeys with
  | error e =>
    rw [read] at reads
    cases reads
  | ok after =>
    have made : hashtabInit (2 : U32) = .ok emptyTable := by rfl
    obtain ⟨records, taken, found⟩ := keys_found_iff made (Nat.le_refl 2) read
    exact ⟨after.1, records, after.2, rfl, taken, found⟩

/-- The first of two keys that are a half circle apart is lost. -/
theorem half_circle_lost : ∃ st records rest,
    hashtabInit (2 : U32) = .ok emptyTable ∧
      ByteReader.times filenameTransReadHelper 2 (emptyTable, ebitmapInit) apartKeys = .ok (st, rest) ∧
      ByteReader.several filenameTransRecord 2 apartKeys = .ok (records, rest) ∧
      (∃ data, (farKey, data) ∈ records) ∧ hashtabSearch filenametrKeyParams st.1 farKey = none ∧
      ¬ KeysFound st records := by
  have reads : ((ByteReader.times filenameTransReadHelper 2 (emptyTable, ebitmapInit)
      apartKeys).toOption.any fun after =>
        (hashtabSearch filenametrKeyParams after.1.1 farKey).isNone) = true := by
    decide
  have inserted : ((ByteReader.several filenameTransRecord 2 apartKeys).toOption.any fun taken =>
      taken.1.any fun r => r.1 == farKey) = true := by
    decide
  cases read : ByteReader.times filenameTransReadHelper 2 (emptyTable, ebitmapInit) apartKeys with
  | error e =>
    rw [read] at reads
    cases reads
  | ok after =>
    obtain ⟨st, rest⟩ := after
    have made : hashtabInit (2 : U32) = .ok emptyTable := by rfl
    obtain ⟨records, taken, -⟩ := recordsRead_loop made read
    rw [taken] at inserted
    obtain ⟨⟨key, data⟩, member, same⟩ := List.any_eq_true.mp inserted
    obtain rfl := eq_of_beq same
    have lost : hashtabSearch filenametrKeyParams st.1 farKey = none := by
      rw [read] at reads
      exact Option.isNone_iff_eq_none.mp reads
    refine ⟨st, records, rest, made, rfl, taken, ⟨data, member⟩, lost, fun all => ?_⟩
    rw [(all.found _ member).2] at lost
    cases lost

end HalfCircle

end Ksrc.Guarantees.FilenameKeys

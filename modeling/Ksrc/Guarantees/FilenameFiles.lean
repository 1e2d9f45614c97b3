import Ksrc.Guarantees.FilenameRules
import Ksrc.Guarantees.TransitionFiles

/-!
# File name transitions that are written and read again

Source: `security/selinux/ss/policydb.c` (`filename_trans_write`, `filename_write_helper`,
`filename_trans_read`, `filename_trans_read_helper`).

The newest format has each key with its data. The target types are no part of it: their bitmap is made again
while the records are read.
-/
namespace Ksrc.Guarantees.FilenameFiles

open Library Source ContextFiles EbitmapBits
  EbitmapFiles FilenameKeys FilenameRules
  HashtabFiles OrderedChains PoliciesInForce
  PolicyCodecs PolicyImages PolicydbShape

variable {p q : Policydb} {bytes rest : List U8} {st : FilenameTrans}
  {table : Hashtab FilenameTransKey (List FilenameTransDatum)}

section Records

variable {e e' : Ebitmap} {bits bits' : List Nat} {records : List (FilenameTransKey × List FilenameTransDatum)}
  {record : FilenameTransKey × List FilenameTransDatum}

/-- A bitmap of target types is determined by them. -/
theorem filterRead_ext (read : FilterRead e bits) (read' : FilterRead e' bits') (same : ∀ b, b ∈ bits ↔ b ∈ bits') :
    e = e' := by
  have nodes := nodes_ext read.nodes read'.nodes fun b => by
    have here := read.bits b
    have there := read'.bits b
    unfold InBitmap at here there
    rw [here, there, same]
  have high : e.highbit = e'.highbit := by
    apply BitVec.eq_of_toNat_eq
    rw [read.high, read'.high, nodes]
  cases e
  cases e'
  simp only at nodes high
  rw [nodes, high]

/-- The loop over records, on the table and on the bitmap. -/
theorem filenametrAdd_run (start : FilenameTrans) {bits : List Nat}
    (run : records.foldlM (fun t e => hashtabInsert filenametrKeyParams t e.1 e.2) start.1 = .ok table)
    (filter : FilterRead start.2 bits) :
    ∃ e, records.foldlM filenametrAdd start = .ok (table, e) ∧
      FilterRead e (bits ++ records.map (·.1.ttype.toNat)) := by
  induction records generalizing start bits with
  | nil =>
    cases run
    refine ⟨start.2, rfl, ?_⟩
    rw [List.map_nil, List.append_nil]
    exact filter
  | cons record records ih =>
    rw [List.foldlM_cons, exceptBind_ok] at run
    obtain ⟨mid, once, more⟩ := run
    have added : filenametrAdd start record = .ok (mid, ebitmapSetBit start.2 record.1.ttype.toNat true) := by
      unfold filenametrAdd
      rw [once]
    obtain ⟨e, done, read⟩ := ih (mid, ebitmapSetBit start.2 record.1.ttype.toNat true) more
      (filter.set record.1.ttype.isLt)
    refine ⟨e, ?_, ?_⟩
    · rw [List.foldlM_cons, added]
      exact done
    · rw [List.map_cons, List.append_cons]
      exact read

/-- A key and its data as a record of a file has them. -/
structure RecordStored (record : FilenameTransKey × List FilenameTransDatum) : Prop where
  name : Stored record.1.name
  some : record.2 ≠ []
  counted : record.2.length < 2 ^ 32
  canonical : ∀ d ∈ record.2, Canonical d.stypes
  small : ∀ d ∈ record.2, Countable d.stypes

theorem record_carries (stored : RecordStored record) :
    Carries einval (filenameWriteHelper record) filenameTransRecord record := by
  have count : (BitVec.ofNat 32 record.2.length).toNat = record.2.length := Nat.mod_eq_of_lt stored.counted
  have nonzero : BitVec.ofNat 32 record.2.length ≠ 0 := by
    intro zero
    rw [zero] at count
    exact stored.some (List.length_eq_zero_iff.mp count.symm)
  refine (u32_carries (BitVec.ofNat 32 record.1.name.length)).cons ((name_carries stored.name).cons
    ((u32_carries _).cons ((u32_carries _).cons ((u32_carries _).cons (.require nonzero ?_)))))
  rw [count, truncate_zeroExtend (show 16 ≤ 32 by decide)]
  refine (Carries.map (g := fun data => (record.1, data)) (.row fun d member => ?_)).last
  refine (bitmap_carries (stored.canonical d member) (stored.small d member)).cons ?_
  exact ((u32_carries d.otype).map (g := fun otype => { d with otype })).last

/-- What a record of a file has that is not in it by itself: a name, and bitmaps without empty nodes. -/
structure RecordOrdinary (record : FilenameTransKey × List FilenameTransDatum) : Prop where
  name : record.1.name ≠ []
  canonical : ∀ d ∈ record.2, Canonical d.stypes
  small : ∀ d ∈ record.2, Countable d.stypes

theorem record_stored (read : filenameTransRecord bytes = .ok (record, rest)) (ordinary : RecordOrdinary record) :
    RecordStored record := by
  simp only [filenameTransRecord, ByteReader.bind_ok, ByteReader.pure_ok, ByteReader.require_ok] at read
  obtain ⟨len, _, -, name, _, named, ttype, _, -, tclass, _, -, ndatum, _, -, _, _, ⟨nonzero, -⟩, data, _, entries,
    rfl, -⟩ := read
  have length := ByteReader.several_length entries
  refine ⟨strRead_stored named ordinary.name, ?_, ?_, ordinary.canonical, ordinary.small⟩
  · rintro rfl
    exact nonzero (BitVec.eq_of_toNat_eq length.symm)
  · rw [length]
    exact ndatum.isLt

/-- The state of records that were read is a table that is made again from its entries. -/
theorem recordsRead_settled {nel : U32} (made : hashtabInit nel = .ok table) (count : records.length = nel.toNat)
    (read : RecordsRead table st records) (near : ∀ i, ∃ base, ∀ r ∈ records, slotOf table r.1 = i → Near base r.1) :
    Settled filenametrKeyParams st.1 := by
  choose base near using near
  have fits : ∀ r ∈ records, Near (base (slotOf table r.1)) r.1 := fun r member => near _ r member rfl
  obtain ⟨sorted, -⟩ := read.sorted base fits
  have init : table.size = hashtabComputeSize nel ∧ table.size ≤ hashtabMaxSize := by
    unfold hashtabInit at made
    dsimp only at made
    split at made
    · cases made
    · rename_i small
      cases made
      have size : (List.replicate (hashtabComputeSize nel)
          ([] : List (FilenameTransKey × List FilenameTransDatum))).length = hashtabComputeSize nel :=
        List.length_replicate
      unfold Hashtab.size
      rw [size]
      exact ⟨rfl, by omega⟩
  constructor
  · rw [read.size, init.1, read.placed.count, count, BitVec.ofNat_toNat, BitVec.setWidth_eq]
  · rw [read.size]
    exact init.2
  · rw [read.placed.count, read.placed.entries.length_eq]
  · rw [read.placed.count, count]
    exact nel.isLt
  · exact read.placed.slot
  · intro i
    refine ascending_of_sorted (filenametrCmp_agrees (base i)) (fun e member => ?_) (sorted i)
    obtain ⟨inside, here⟩ := read.placed.mem_chain.mp member
    exact near i e inside (by rw [← read.slot, here])

end Records

section Tables

variable {records : List (FilenameTransKey × List FilenameTransDatum)}

/-- Where the file name transitions of a policy in force were read. -/
structure NamesRead (p q : Policydb) (bytes rest : List U8) : Prop where
  vers : q.policyvers = p.policyvers
  fresh : q.filenameTransTtypes = ebitmapInit
  read : filenameTransRead q bytes = .ok ({ q with
    compatFilenameTransCount := p.compatFilenameTransCount, filenameTrans := p.filenameTrans
    filenameTransTtypes := p.filenameTransTtypes }, rest)

theorem inForce_names (inForce : InForce p) : ∃ q bytes rest, NamesRead p q bytes rest ∧
    q.compatFilenameTransCount = 0 ∧ q.filenameTrans = hashtabZero := by
  obtain ⟨bytes, rest, s, rules⟩ := inForce_steps inForce
  obtain ⟨r, made⟩ := policydbReadRules_steps s.rules
  have frame := r.frame
  rw [← made] at frame
  have header := policydbReadHeader_made r.header
  have tables := (symtabsRead_ok r.symtabs).1
  have conds := r.condsRead.2
  have fresh : r.p₂.filenameTransTtypes = ebitmapInit ∧ r.p₂.compatFilenameTransCount = 0 ∧
      r.p₂.filenameTrans = hashtabZero := by
    rw [conds, tables, header]
    exact ⟨rfl, rfl, rfl⟩
  have names := r.names
  rw [filenameTransRead_ok names] at names
  refine ⟨{ r.p₂ with roleTr := r.roleTr, roleAllow := r.roleAllow }, r.atNames, s.atOcontexts, ⟨?_, fresh.1, ?_⟩,
    fresh.2⟩
  · rw [rules]
    unfold PolicySteps.policy
    rw [frame]
  · rw [rules]
    unfold PolicySteps.policy
    rw [frame]
    exact names

theorem filenameTransRead_new (named : policydbVersionFilenameTrans ≤ q.policyvers)
    (new : policydbVersionCompFtrans ≤ q.policyvers) (fresh : q.filenameTransTtypes = ebitmapInit) :
    filenameTransRead q = nextU32 >>= fun nel => ByteReader.lift (hashtabInit nel) >>= fun table =>
      ByteReader.times filenameTransReadHelper nel.toNat (table, ebitmapInit) >>= fun st =>
        pure { q with filenameTrans := st.1, filenameTransTtypes := st.2 } := by
  unfold filenameTransRead
  rw [if_neg (BitVec.not_lt.mpr named), fresh]
  simp only [if_neg (BitVec.not_lt.mpr new)]

/-- In the newest format the table was made of records. -/
theorem names_records (new : policydbVersionCompFtrans ≤ p.policyvers) (read : NamesRead p q bytes rest) :
    ∃ nel table records, hashtabInit nel = .ok table ∧ records.length = nel.toNat ∧
      (∀ r ∈ records, ∃ bytes rest, filenameTransRecord bytes = .ok (r, rest)) ∧
      RecordsRead table (p.filenameTrans, p.filenameTransTtypes) records := by
  have named : policydbVersionFilenameTrans ≤ q.policyvers := by
    rw [read.vers]
    exact BitVec.le_trans (by decide) new
  have loaded := read.read
  rw [filenameTransRead_new named (by rw [read.vers]; exact new) read.fresh] at loaded
  simp only [ByteReader.bind_ok, ByteReader.lift_ok, ByteReader.pure_ok] at loaded
  obtain ⟨nel, _, -, table, _, ⟨made, rfl⟩, st, _, loop, same, -⟩ := loaded
  obtain ⟨records, entries, done⟩ := recordsRead_loop made loop
  have first : st.1 = p.filenameTrans := congrArg Policydb.filenameTrans same
  have second : st.2 = p.filenameTransTtypes := congrArg Policydb.filenameTransTtypes same
  have whole : st = (p.filenameTrans, p.filenameTransTtypes) := Prod.ext first second
  rw [whole] at done
  exact ⟨nel, table, records, made, ByteReader.several_length entries,
    ByteReader.several_all (fun bytes r rest once => ⟨bytes, rest, once⟩) entries, done⟩

/-- The target types of each chain are within a half circle, where the comparison of keys is an order. -/
def ChainsNear (table : Hashtab FilenameTransKey (List FilenameTransDatum)) : Prop :=
  ∀ i, ∃ base, ∀ e ∈ table.entries, slotOf table e.1 = i → Near base e.1

theorem names_carry (new : policydbVersionCompFtrans ≤ p.policyvers) (near : ChainsNear p.filenameTrans)
    (ordinary : ∀ e ∈ p.filenameTrans.entries, RecordOrdinary e) (read : NamesRead p q bytes rest)
    {q' : Policydb} (vers : q'.policyvers = p.policyvers) (fresh : q'.filenameTransTtypes = ebitmapInit) :
    Carries einval (filenameTransWrite p) (filenameTransRead q')
      { q' with filenameTrans := p.filenameTrans, filenameTransTtypes := p.filenameTransTtypes } := by
  obtain ⟨nel, table, records, made, length, each, recorded⟩ := names_records new read
  have perm := recorded.placed.entries
  have settled := recordsRead_settled made length recorded fun i => by
    obtain ⟨base, all⟩ := near i
    refine ⟨base, fun r member here => all r (perm.mem_iff.mpr member) ?_⟩
    rw [← here]
    exact recorded.slot r.1
  have counted : (BitVec.ofNat 32 p.filenameTrans.nel).toNat = p.filenameTrans.entries.length := by
    have count := settled.count
    rw [BitVec.toNat_ofNat, Nat.mod_eq_of_lt settled.counted]
    exact count
  obtain ⟨start, init, run⟩ := rebuilt settled
  obtain ⟨e, done, filter⟩ := filenametrAdd_run (start, ebitmapInit) run filterRead_init
  have same : e = p.filenameTransTtypes := filterRead_ext filter recorded.filter fun b => by
    rw [List.nil_append]
    exact (perm.map _).mem_iff
  rw [same] at done
  have named : policydbVersionFilenameTrans ≤ p.policyvers := BitVec.le_trans (by decide) new
  unfold filenameTransWrite
  rw [if_neg (BitVec.not_lt.mpr named), if_neg (BitVec.not_lt.mpr new),
    filenameTransRead_new (by rw [vers]; exact named) (by rw [vers]; exact new) fresh]
  refine (u32_carries _).cons (.lift init ?_)
  rw [counted]
  have entries : List.Forall₂ (fun c a => Carries einval (filenameWriteHelper c) filenameTransRecord a)
      p.filenameTrans.entries p.filenameTrans.entries := by
    refine List.forall₂_same.mpr fun record member => ?_
    obtain ⟨_, _, taken⟩ := each record (perm.mem_iff.mp member)
    exact record_carries (record_stored taken (ordinary record member))
  have helper : filenameTransReadHelper = fun st => filenameTransRecord >>= fun record =>
      ByteReader.lift (filenametrAdd st record) := funext filenameTransReadHelper_eq
  rw [helper]
  exact ((Carries.rounds entries done).map
    (g := fun st => { q' with filenameTrans := st.1, filenameTransTtypes := st.2 })).last

/-- The bytes of a key and its data. -/
def recordBytes (name : Name) (ttype : Nat) (data : List (Nat × Nat)) : List U8 :=
  word name.length ++ name ++ word ttype ++ word 1 ++
    counted (data.map fun d => bitmapBytes 64 [(0, 2 ^ d.1)] ++ word d.2)

/-- Two keys, the first with two data. -/
def namesImage : PolicyImage :=
  { smallImage with
    fileTrans := counted [recordBytes (cstr ['x']) 2 [(0, 1), (1, 2)], recordBytes (cstr ['x']) 1 [(0, 2)]] }

def namesPlain (p : Policydb) : Bool :=
  p.policyvers == 33 && p.filenameTrans.nel == 2 && p.filenameTrans.entries.all fun e =>
    e.1.name != [] && decide (e.1.ttype.toNat < 2 ^ 31) && e.2.all fun d =>
      d.stypes == ebitmapSetBit ebitmapInit 0 true || d.stypes == ebitmapSetBit ebitmapInit 1 true

end Tables

end Ksrc.Guarantees.FilenameFiles

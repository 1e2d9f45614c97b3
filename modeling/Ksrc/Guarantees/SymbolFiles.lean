import Ksrc.Guarantees.ConstraintFiles
import Ksrc.Guarantees.HashtabFiles
import Ksrc.Guarantees.HashtabMaps
import Ksrc.Guarantees.SymbolTables
import Ksrc.Source.SymbolWrites

/-!
# Symbol tables that are written and read again

Source: `security/selinux/ss/policydb.c` (`read_f` and `write_f`, the loops over the symbol tables in
`policydb_read` and `policydb_write`), `conditional.c` (`cond_read_bool`, `cond_write_bool`).

A symbol that was read has a name of its own bytes and bitmaps of its own bits, but that a name in the file
may begin with 0 and a bitmap may have empty nodes. A symbol without these is read back as it is, and a
table of such symbols with the same chains.
-/
namespace Ksrc.Guarantees.SymbolFiles

open Library Source ConstraintFiles EbitmapBits
  EbitmapFiles HashtabFiles OrderedChains PolicyCodecs
  PolicydbShape SymbolTables

variable {bytes rest : List U8} {vers : U32}

section Loops

variable {δ : Type} {reader : PolicyReader (Name × δ)} {write : Name × δ → PolicyWriter} {s s₀ s' : Symtab δ}
  {nprim nel : U32}

/-- A table that is made again from its entries, each of which was read. -/
structure SymtabStored (reader : PolicyReader (Name × δ)) (s : Symtab δ) : Prop where
  settled : Settled symtabKeyParams s.table
  each : ∀ e ∈ s.table.entries, ∃ bytes rest, reader bytes = .ok (e, rest)

/-- A table that is being filled. -/
structure SymtabFilling (reader : PolicyReader (Name × δ)) (nprim : U32) (size : Nat) (s : Symtab δ) : Prop where
  nprim : s.nprim = nprim
  size : s.table.size = size
  ok : TableOk s.table
  count : s.table.nel = s.table.entries.length
  each : ∀ e ∈ s.table.entries, ∃ bytes rest, reader bytes = .ok (e, rest)

theorem SymtabFilling.insert {size : Nat} (filling : SymtabFilling reader nprim size s) {e : Name × δ}
    (read : reader bytes = .ok (e, rest)) (inserted : symtabInsert s e.1 e.2 = .ok s') :
    SymtabFilling reader nprim size s' ∧ s'.table.nel = s.table.nel + 1 := by
  obtain ⟨kept, ok, perm⟩ := symtabInsert_ok filling.ok inserted
  have step : Inserted symtabKeyParams s.table s'.table e.1 e.2 := by
    unfold symtabInsert at inserted
    split at inserted
    · cases inserted
    · rename_i table linked
      cases inserted
      exact hashtabInsert_inserted linked
  refine ⟨⟨kept.trans filling.nprim, step.size.trans filling.size, ok, ?_, fun other member => ?_⟩, step.count⟩
  · rw [step.count, perm.length_eq, List.length_cons, filling.count]
  · rcases List.mem_cons.mp (perm.mem_iff.mp member) with rfl | old
    · exact ⟨bytes, rest, read⟩
    · exact filling.each other old

theorem symtabInit_size (made : symtabInit nel = .ok s₀) :
    s₀.table.size = hashtabComputeSize nel ∧ s₀.table.size ≤ hashtabMaxSize ∧ s₀.table.nel = 0 ∧ s₀.nprim = 0 := by
  unfold symtabInit hashtabInit at made
  dsimp only at made
  split at made
  · cases made
  · rename_i table sized
    split at sized
    · cases sized
    · rename_i small
      cases sized
      cases made
      unfold Hashtab.size
      simp only [List.length_replicate]
      exact ⟨trivial, by omega, trivial, trivial⟩

theorem symtabFilling_init (made : symtabInit nel = .ok s₀) :
    SymtabFilling reader nprim (hashtabComputeSize nel) { s₀ with nprim } := by
  obtain ⟨ok, empty⟩ := symtabInit_ok made
  obtain ⟨size, -, none, -⟩ := symtabInit_size made
  refine ⟨rfl, size, ok, ?_, fun e member => ?_⟩
  · change s₀.table.nel = s₀.table.entries.length
    rw [none, empty]
    rfl
  · change e ∈ s₀.table.entries at member
    rw [empty] at member
    cases member

theorem SymtabFilling.settled (filling : SymtabFilling reader nprim (hashtabComputeSize nel) s)
    (fits : hashtabComputeSize nel ≤ hashtabMaxSize) (count : s.table.nel = nel.toNat) :
    Settled symtabKeyParams s.table := by
  constructor
  · rw [filling.size, count, BitVec.ofNat_toNat, BitVec.setWidth_eq]
  · rw [filling.size]
    exact fits
  · exact filling.count
  · rw [count]
    exact nel.isLt
  · exact filling.ok.placed
  · intro i
    exact ascending_of_sorted strcmp_agrees (fun _ _ => trivial) (filling.ok.sorted i)

/-- The loop of a table that was read. -/
theorem symLoop_stored (made : symtabInit nel = .ok s₀)
    (loop : ByteReader.times (symRead reader) nel.toNat { s₀ with nprim } bytes = .ok (s, rest)) :
    SymtabStored reader s ∧ s.nprim = nprim := by
  obtain ⟨size, fits, none, -⟩ := symtabInit_size made
  obtain ⟨filling, counted⟩ := times_counted (SymtabFilling reader nprim (hashtabComputeSize nel))
    (fun s => s.table.nel) (fun s bytes s' rest before once => by
      simp only [symRead, ByteReader.bind_ok, ByteReader.lift_ok] at once
      obtain ⟨⟨key, datum⟩, _, item, inserted, -⟩ := once
      exact before.insert item inserted) (symtabFilling_init made) loop
  simp only [none, Nat.zero_add] at counted
  rw [size] at fits
  exact ⟨⟨filling.settled fits counted, filling.each⟩, filling.nprim⟩

theorem symtab_stored (read : symtabRead .ok (symRead reader) bytes = .ok (s, rest)) : SymtabStored reader s := by
  simp only [symtabRead, ByteReader.bind_ok, ByteReader.pure_ok, ByteReader.lift_ok] at read
  obtain ⟨nprim, _, -, nel, _, -, s₀, _, ⟨made, rfl⟩, s₁, _, ⟨same, rfl⟩, s₂, _, loop, rfl, -⟩ := read
  cases same
  have whole : s₀ = { s₀ with nprim := s₀.nprim } := rfl
  rw [whole] at loop
  obtain ⟨stored, -⟩ := symLoop_stored made loop
  exact ⟨stored.settled, stored.each⟩

theorem symtabInsert_table {key : Name} {datum : δ} {table : Hashtab Name δ}
    (inserted : hashtabInsert symtabKeyParams s.table key datum = .ok table) :
    symtabInsert s key datum = .ok { s with table } := by
  unfold symtabInsert
  rw [inserted]

/-- Insertions in a table are those in its symbol table. -/
theorem symtab_inserts {entries : List (Name × δ)} {t t' : Hashtab Name δ}
    (run : entries.foldlM (fun t e => hashtabInsert symtabKeyParams t e.1 e.2) t = .ok t') :
    entries.foldlM (fun s e => symtabInsert s e.1 e.2) ({ table := t, nprim } : Symtab δ) =
      .ok { table := t', nprim } := by
  induction entries generalizing t with
  | nil =>
    cases run
    rfl
  | cons e entries ih =>
    rw [List.foldlM_cons, exceptBind_ok] at run
    obtain ⟨mid, once, more⟩ := run
    have inserted : symtabInsert ({ table := t, nprim } : Symtab δ) e.1 e.2 = .ok { table := mid, nprim } :=
      symtabInsert_table once
    rw [List.foldlM_cons, inserted]
    exact ih more

/-- The loop of a table that is read back. -/
theorem symLoop_carries (settled : Settled symtabKeyParams s.table)
    (each : ∀ e ∈ s.table.entries, Carries einval (write e) reader e) :
    ∃ s₀, symtabInit (BitVec.ofNat 32 s.table.nel) = .ok s₀ ∧ ∀ nprim,
      Carries einval (ByteWriter.each write s.table.entries)
        (ByteReader.times (symRead reader) (BitVec.ofNat 32 s.table.nel).toNat { s₀ with nprim })
        { s with nprim } := by
  obtain ⟨start, made, run⟩ := rebuilt settled
  have count : (BitVec.ofNat 32 s.table.nel).toNat = s.table.entries.length := by
    rw [BitVec.toNat_ofNat, Nat.mod_eq_of_lt settled.counted, settled.count]
  refine ⟨{ table := start, nprim := 0 }, ?_, fun nprim => ?_⟩
  · unfold symtabInit
    rw [made]
  · have related : List.Forall₂ (fun e e' => e' = e ∧ e ∈ s.table.entries) s.table.entries s.table.entries :=
      List.forall₂_same.mpr fun e member => ⟨rfl, member⟩
    rw [count]
    refine Carries.times related (fun t e e' t' same inserted => ?_) (symtab_inserts run)
    obtain ⟨rfl, member⟩ := same
    obtain ⟨bytes, emits, takes⟩ := each e' member
    exact ⟨bytes, emits, fun rest => ByteReader.bind_ok.mpr
      ⟨e', rest, takes rest, ByteReader.lift_ok.mpr ⟨inserted, rfl⟩⟩⟩

theorem symtab_carries (settled : Settled symtabKeyParams s.table)
    (each : ∀ e ∈ s.table.entries, Carries einval (write e) reader e) :
    Carries einval (symtabWrite write s) (symtabRead .ok (symRead reader)) s := by
  obtain ⟨s₀, made, loop⟩ := symLoop_carries settled each
  refine (u32_carries s.nprim).cons ((u32_carries _).cons (.lift made (.lift rfl ?_)))
  exact ((loop s₀.nprim).map (g := fun t => { t with nprim := s.nprim })).last

end Loops

section Data

/-- A bitmap as the setters of the kernel leave it. -/
structure BitmapStored (e : Ebitmap) : Prop where
  canonical : Canonical e
  small : Countable e

theorem BitmapStored.carries {e : Ebitmap} (stored : BitmapStored e) : Carries einval (ebitmapWrite e) ebitmapRead e :=
  bitmap_carries stored.canonical stored.small

theorem level_carries {l : MlsLevel} (stored : LevelStored l) : Carries einval (mlsLevelWrite l) mlsReadLevel l :=
  (u32_carries l.sens).cons ((bitmap_carries stored.canonical stored.small).map
    (g := fun cat => (⟨l.sens, cat⟩ : MlsLevel))).last

theorem perm_carries {e : Name × PermDatum} (stored : Stored e.1) : Carries einval (permWrite e) permReadDatum e :=
  (u32_carries (BitVec.ofNat 32 e.1.length)).cons ((u32_carries e.2.value).cons
    ((name_carries stored).map (g := fun key => (key, e.2))).last)

/-- Permissions that are read back. -/
structure PermsStored (s : Symtab PermDatum) : Prop where
  settled : Settled symtabKeyParams s.table
  names : ∀ e ∈ s.table.entries, Stored e.1

/-- Permissions between which other sections are read. -/
theorem perms_carry {s : Symtab PermDatum} (stored : PermsStored s) :
    ∃ s₀, symtabInit (BitVec.ofNat 32 s.table.nel) = .ok s₀ ∧
      Carries einval (ByteWriter.each permWrite s.table.entries)
        (ByteReader.times permRead (BitVec.ofNat 32 s.table.nel).toNat { s₀ with nprim := s.nprim }) s := by
  have each : ∀ e ∈ s.table.entries, Carries einval (permWrite e) permReadDatum e :=
    fun e member => perm_carries (stored.names e member)
  obtain ⟨s₀, made, loop⟩ := symLoop_carries stored.settled each
  exact ⟨s₀, made, loop s.nprim⟩

theorem permRead_name {e : Name × PermDatum} (read : permReadDatum bytes = .ok (e, rest)) (some : e.1 ≠ []) :
    Stored e.1 := by
  simp only [permReadDatum, ByteReader.bind_ok, ByteReader.pure_ok] at read
  obtain ⟨_, _, -, _, _, -, key, _, named, rfl, -⟩ := read
  exact strRead_stored named some

theorem perms_stored {s s₀ : Symtab PermDatum} {nel nprim : U32} (made : symtabInit nel = .ok s₀)
    (loop : ByteReader.times permRead nel.toNat { s₀ with nprim } bytes = .ok (s, rest))
    (some : ∀ e ∈ s.table.entries, e.1 ≠ []) : PermsStored s := by
  change ByteReader.times (symRead permReadDatum) nel.toNat _ bytes = _ at loop
  obtain ⟨stored, -⟩ := symLoop_stored made loop
  refine ⟨stored.settled, fun e member => ?_⟩
  obtain ⟨_, _, read⟩ := stored.each e member
  exact permRead_name read (some e member)

theorem common_carries {e : Name × CommonDatum} (read : commonReadDatum bytes = .ok (e, rest)) (some : e.1 ≠ [])
    (perms : ∀ perm ∈ e.2.permissions.table.entries, perm.1 ≠ []) :
    Carries einval (commonWrite e) commonReadDatum e := by
  simp only [commonReadDatum, ByteReader.bind_ok, ByteReader.pure_ok, ByteReader.lift_ok] at read
  obtain ⟨len, _, -, value, _, -, nprim, _, -, nel, _, -, s₀, _, ⟨made, rfl⟩, key, _, named, permissions, _, loop,
    rfl, -⟩ := read
  have name := strRead_stored named some
  obtain ⟨s₁, made', carried⟩ := perms_carry (perms_stored made loop perms)
  refine (u32_carries (BitVec.ofNat 32 key.length)).cons ((u32_carries value).cons ((u32_carries _).cons
    ((u32_carries _).cons (.lift made' ((name_carries name).cons ?_)))))
  exact (carried.map (g := fun permissions => (key, ({ value, permissions } : CommonDatum)))).last

end Data

section Classes

variable {pCommons : Symtab CommonDatum}

/-- A constraint whose bitmaps have no empty nodes. -/
structure ConstraintOrdinary (c : ConstraintNode) : Prop where
  names : ∀ e ∈ c.expr, BitmapStored e.names
  types : ∀ e ∈ c.expr, ∀ t ∈ e.typeNames, BitmapStored t.types ∧ BitmapStored t.negset

theorem rewritten_same {e e' : Ebitmap} (stored : BitmapStored e) (again : Rewritten e e') : e' = e := by
  refine canonical_ext again.canonical stored.canonical fun b => ?_
  have here := getBit_iff (EbitmapWalks.Canonical.built stored.canonical) (b := b)
  have there := getBit_iff (EbitmapWalks.Canonical.built again.canonical) (b := b)
  rw [← here, ← there, again.bits]

theorem expr_same {e e' : ConstraintExpr} (names : BitmapStored e.names)
    (types : ∀ t ∈ e.typeNames, BitmapStored t.types ∧ BitmapStored t.negset) (again : ExprRewritten e e') : e' = e := by
  have sameNames := rewritten_same names again.names
  have sameTypes : e'.typeNames = e.typeNames := by
    have typed := again.typeNames
    generalize e.typeNames = t at typed types
    generalize e'.typeNames = t' at typed
    cases typed with
    | none => rfl
    | @some t t' same =>
      obtain ⟨stored, negated⟩ := types t rfl
      have first := rewritten_same stored same.types
      have second := rewritten_same negated same.negset
      have third := same.flags
      cases t
      cases t'
      simp only at first second third
      rw [first, second, third]
  obtain ⟨exprType, at', op, -, -⟩ := again
  cases e
  cases e'
  simp only at exprType at' op sameNames sameTypes
  rw [exprType, at', op, sameNames, sameTypes]

theorem node_same {c c' : ConstraintNode} (ordinary : ConstraintOrdinary c) (again : NodeRewritten c c') : c' = c := by
  have exprs : c'.expr = c.expr := by
    obtain ⟨names, types⟩ := ordinary
    have each := again.expr
    generalize c.expr = es at each names types
    generalize c'.expr = es' at each
    induction each with
    | nil => rfl
    | cons first _ ih =>
      rw [expr_same (names _ List.mem_cons_self) (types _ List.mem_cons_self) first,
        ih (fun e member => names e (List.mem_cons_of_mem _ member))
          fun e member => types e (List.mem_cons_of_mem _ member)]
  have permissions := again.permissions
  cases c
  cases c'
  simp only at exprs permissions
  rw [exprs, permissions]

theorem constraints_carry {ncons : U32} {allowxtarget : Bool} {list : List ConstraintNode}
    (read : readConsHelper vers ncons allowxtarget bytes = .ok (list, rest))
    (ordinary : ∀ c ∈ list, ConstraintOrdinary c) :
    Carries einval (writeConsHelper vers list) (readConsHelper vers (BitVec.ofNat 32 list.length) allowxtarget) list := by
  have count : (BitVec.ofNat 32 list.length).toNat = list.length := by
    rw [ByteReader.several_length read, BitVec.ofNat_toNat, BitVec.setWidth_eq]
  have carried : ∀ c ∈ list, (∀ e ∈ c.expr, ExprCountable e) → ∃ c', NodeRewritten c c' ∧
      Carries einval (writeConsNode vers c) (readConsNode vers allowxtarget) c' :=
    ByteReader.several_all (fun _ _ _ once => node_carries once) read
  unfold readConsHelper
  rw [count]
  refine .row fun c member => ?_
  have stored := ordinary c member
  obtain ⟨c', again, carries⟩ := carried c member fun e inside =>
    ⟨(stored.names e inside).small, fun t typed =>
      ⟨(stored.types e inside t typed).1.small, (stored.types e inside t typed).2.small⟩⟩
  rw [node_same stored again] at carries
  exact carries

theorem comkey_carries {len2 : U32} {comkey : Option Name} {comdatum : Option CommonDatum}
    (read : classReadCommon pCommons len2 bytes = .ok ((comkey, comdatum), rest)) (some : comkey ≠ .some []) :
    Carries einval (comkeyWrite comkey) (classReadCommon pCommons (BitVec.ofNat 32 (comkeyLength comkey)))
      (comkey, comdatum) := by
  unfold classReadCommon at read
  split at read
  · obtain ⟨same, -⟩ := ByteReader.pure_ok.mp read
    cases same
    exact .pure _
  · obtain ⟨key, _, named, read⟩ := ByteReader.bind_ok.mp read
    cases found : symtabSearch pCommons key with
    | none =>
      simp only [found] at read
      exact absurd read ByteReader.fail_ok
    | some common =>
      simp only [found] at read
      obtain ⟨same, -⟩ := ByteReader.pure_ok.mp read
      cases same
      have stored := strRead_stored named fun empty => some (congrArg Option.some empty)
      have nonzero : ¬ BitVec.ofNat 32 key.length = 0 := by
        intro zero
        have length : (BitVec.ofNat 32 key.length).toNat = key.length := by
          have := stored.short
          rw [BitVec.toNat_ofNat, Nat.mod_eq_of_lt (by omega)]
        rw [zero] at length
        exact stored.some (List.length_eq_zero_iff.mp length.symm)
      unfold classReadCommon comkeyLength comkeyWrite
      simp only [if_neg nonzero]
      obtain ⟨name, emits, takes⟩ := name_carries stored
      refine ⟨name, emits, fun rest => ByteReader.bind_ok.mpr ⟨key, rest, takes rest, ?_⟩⟩
      simp only [found]
      exact ByteReader.pure_ok.mpr ⟨rfl, rfl⟩

theorem defaults_carry {c : ClassDatum} {d : U8 × U8 × U8}
    (read : classReadDefaults vers bytes = .ok (d, rest))
    (same : d = (c.defaultUser, c.defaultRole, c.defaultRange)) :
    Carries einval (classWriteDefaults vers c) (classReadDefaults vers)
      (c.defaultUser, c.defaultRole, c.defaultRange) := by
  unfold classReadDefaults at read
  unfold classWriteDefaults classReadDefaults
  split at read
  · rename_i new
    rw [if_pos new, if_pos new]
    have whole : ((c.defaultUser.zeroExtend 32).truncate 8, (c.defaultRole.zeroExtend 32).truncate 8,
        (c.defaultRange.zeroExtend 32).truncate 8) = (c.defaultUser, c.defaultRole, c.defaultRange) := by
      rw [truncate_zeroExtend (by omega), truncate_zeroExtend (by omega), truncate_zeroExtend (by omega)]
    rw [← whole]
    refine (u32_carries _).cons ((u32_carries _).cons ?_)
    exact ((u32_carries (c.defaultRange.zeroExtend 32)).map (g := fun range : U32 =>
      ((c.defaultUser.zeroExtend 32).truncate 8, (c.defaultRole.zeroExtend 32).truncate 8, range.truncate 8))).last
  · rename_i old
    rw [if_neg old, if_neg old]
    obtain ⟨zero, -⟩ := ByteReader.pure_ok.mp read
    rw [← same, zero]
    exact .pure _

theorem defaultType_carries {c : ClassDatum} (read : classReadDefaultType vers bytes = .ok (c.defaultType, rest)) :
    Carries einval (classWriteDefaultType vers c) (classReadDefaultType vers) c.defaultType := by
  unfold classReadDefaultType at read
  unfold classWriteDefaultType classReadDefaultType
  split at read
  · rename_i new
    rw [if_pos new, if_pos new]
    have carried := (u32_carries (c.defaultType.zeroExtend 32)).map (g := fun type : U32 => type.truncate 8)
    rw [truncate_zeroExtend (by omega)] at carried
    exact carried
  · rename_i old
    rw [if_neg old, if_neg old]
    obtain ⟨zero, -⟩ := ByteReader.pure_ok.mp read
    rw [zero]
    exact .pure _

theorem validatetrans_carries {list : List ConstraintNode} (new : policydbVersionValidatetrans ≤ vers)
    (read : classReadValidatetrans vers bytes = .ok (list, rest)) (ordinary : ∀ c ∈ list, ConstraintOrdinary c) :
    Carries einval (ByteWriter.seq [putCount list.length, writeConsHelper vers list])
      (classReadValidatetrans vers) list := by
  unfold classReadValidatetrans at read ⊢
  rw [if_pos new] at read ⊢
  obtain ⟨ncons, _, -, read⟩ := ByteReader.bind_ok.mp read
  exact (u32_carries _).cons (constraints_carry read ordinary).last

/-- A class whose names are not empty and whose constraints have bitmaps without empty nodes. -/
structure ClassOrdinary (e : Name × ClassDatum) : Prop where
  name : e.1 ≠ []
  comkey : e.2.comkey ≠ some []
  perms : ∀ perm ∈ e.2.permissions.table.entries, perm.1 ≠ []
  constraints : ∀ c ∈ e.2.constraints, ConstraintOrdinary c
  validatetrans : ∀ c ∈ e.2.validatetrans, ConstraintOrdinary c

theorem class_carries {e : Name × ClassDatum} (new : policydbVersionValidatetrans ≤ vers)
    (read : classReadDatum vers pCommons bytes = .ok (e, rest)) (ordinary : ClassOrdinary e) :
    Carries einval (classWrite vers e) (classReadDatum vers pCommons) e := by
  simp only [classReadDatum, ByteReader.bind_ok, ByteReader.pure_ok, ByteReader.lift_ok] at read
  obtain ⟨len, _, -, len2, _, -, value, _, -, nprim, _, -, nel, _, -, ncons, _, -, s₀, _, ⟨made, rfl⟩, key, _, named,
    ⟨comkey, comdatum⟩, _, common, permissions, _, loop, constraints, _, cons, validatetrans, _, valid,
    ⟨defaultUser, defaultRole, defaultRange⟩, _, defaults, defaultType, _, type, rfl, -⟩ := read
  have name := strRead_stored named ordinary.name
  obtain ⟨s₁, made', perms⟩ := perms_carry (perms_stored made loop ordinary.perms)
  refine (u32_carries (BitVec.ofNat 32 key.length)).cons ((u32_carries _).cons ((u32_carries value).cons
    ((u32_carries permissions.nprim).cons ((u32_carries _).cons ((u32_carries _).cons (.lift made'
      ((name_carries name).cons ((comkey_carries common ordinary.comkey).cons (perms.cons
        ((constraints_carry cons ordinary.constraints).cons ?_))))))))))
  refine (validatetrans_carries new valid ordinary.validatetrans).two ((defaults_carry defaults rfl).cons ?_)
  exact ((defaultType_carries type).map (g := fun defaultType =>
    (key, ({ value, comkey, comdatum, permissions, constraints, validatetrans, defaultUser, defaultRole,
             defaultType, defaultRange } : ClassDatum)))).last

end Classes

section Symbols

theorem bounds_carry {bounds : U32} (read : boundsRead vers bytes = .ok (bounds, rest)) :
    Carries einval (boundsWrite vers bounds) (boundsRead vers) bounds := by
  unfold boundsRead at read
  unfold boundsWrite boundsRead
  split at read
  · rename_i new
    rw [if_pos new, if_pos new]
    exact u32_carries bounds
  · rename_i old
    rw [if_neg old, if_neg old]
    obtain ⟨zero, -⟩ := ByteReader.pure_ok.mp read
    rw [← zero]
    exact .pure _

/-- A role whose name is not empty and whose bitmaps have no empty nodes. -/
structure RoleOrdinary (e : Name × RoleDatum) : Prop where
  name : e.1 ≠ []
  dominates : BitmapStored e.2.dominates
  types : BitmapStored e.2.types

theorem role_carries {e : Name × RoleDatum} (name : Stored e.1)
    (bounds : Carries einval (boundsWrite vers e.2.bounds) (boundsRead vers) e.2.bounds) (ordinary : RoleOrdinary e) :
    Carries einval (roleWrite vers e) (roleReadDatum vers) e := by
  refine (u32_carries (BitVec.ofNat 32 e.1.length)).cons ((u32_carries e.2.value).cons (bounds.cons
    ((name_carries name).cons (ordinary.dominates.carries.cons ?_))))
  exact (ordinary.types.carries.map (g := fun types => (e.1, ({ e.2 with types } : RoleDatum)))).last

theorem roleRead_name {e : Name × RoleDatum} (read : roleReadDatum vers bytes = .ok (e, rest)) :
    (e.1 ≠ [] → Stored e.1) ∧ Carries einval (boundsWrite vers e.2.bounds) (boundsRead vers) e.2.bounds := by
  simp only [roleReadDatum, ByteReader.bind_ok, ByteReader.pure_ok] at read
  obtain ⟨_, _, -, _, _, -, bounds, _, bounded, key, _, named, _, _, -, _, _, -, rfl, -⟩ := read
  exact ⟨strRead_stored named, bounds_carry bounded⟩

theorem properties_flags {t : TypeDatum} (new : policydbVersionBoundary ≤ vers) (primary : t.primary = 0 ∨ t.primary = 1)
    (isAttribute : t.isAttribute = 0 ∨ t.isAttribute = 1) :
    (if typeProperties vers t &&& typedatumPropertyPrimary ≠ 0 then 1 else 0) = t.primary ∧
      (if typeProperties vers t &&& typedatumPropertyAttribute ≠ 0 then 1 else 0) = t.isAttribute := by
  unfold typeProperties
  rw [if_pos new]
  rcases primary with primary | primary <;> rcases isAttribute with isAttribute | isAttribute
  all_goals
    rw [primary, isAttribute]
    decide

theorem flag_bit (p : Prop) [Decidable p] : (if p then 1 else 0 : U8) = 0 ∨ (if p then 1 else 0 : U8) = 1 := by
  split
  · exact .inr rfl
  · exact .inl rfl

/-- The properties of a type are those that it was read with. -/
theorem type_carries {e : Name × TypeDatum} (read : typeReadDatum vers bytes = .ok (e, rest)) (some : e.1 ≠ []) :
    Carries einval (typeWrite vers e) (typeReadDatum vers) e := by
  simp only [typeReadDatum, ByteReader.bind_ok] at read
  obtain ⟨len, _, -, value, _, -, prop, _, -, bounds, _, bounded, key, _, named, read⟩ := read
  have datum : e.2.value = value ∧ e.2.bounds = bounds ∧ e.1 = key := by
    split at read
    · obtain ⟨rfl, -⟩ := ByteReader.pure_ok.mp read
      exact ⟨rfl, rfl, rfl⟩
    · obtain ⟨rfl, -⟩ := ByteReader.pure_ok.mp read
      exact ⟨rfl, rfl, rfl⟩
  have name : Stored e.1 := by
    rw [datum.2.2] at some ⊢
    exact strRead_stored named some
  have bounded : Carries einval (boundsWrite vers e.2.bounds) (boundsRead vers) e.2.bounds := by
    rw [datum.2.1]
    exact bounds_carry bounded
  refine (u32_carries (BitVec.ofNat 32 e.1.length)).cons ((u32_carries e.2.value).cons
    ((u32_carries (typeProperties vers e.2)).cons (bounded.cons ?_)))
  by_cases new : policydbVersionBoundary ≤ vers
  · simp only [if_pos new] at read ⊢
    have flags : (e.2.primary = 0 ∨ e.2.primary = 1) ∧ (e.2.isAttribute = 0 ∨ e.2.isAttribute = 1) := by
      obtain ⟨rfl, -⟩ := ByteReader.pure_ok.mp read
      exact ⟨flag_bit _, flag_bit _⟩
    obtain ⟨primary, isAttribute⟩ := properties_flags new flags.1 flags.2
    rw [primary, isAttribute]
    exact ((name_carries name).map (g := fun key => (key, e.2))).last
  · simp only [if_neg new] at read ⊢
    have plain : (typeProperties vers e.2).truncate 8 = e.2.primary := by
      unfold typeProperties
      rw [if_neg new]
      exact truncate_zeroExtend (by omega) _
    have noAttribute : e.2.isAttribute = 0 := by
      obtain ⟨rfl, -⟩ := ByteReader.pure_ok.mp read
      rfl
    rw [plain, ← noAttribute]
    exact ((name_carries name).map (g := fun key => (key, e.2))).last

/-- A user whose name is not empty and whose bitmaps have no empty nodes. -/
structure UserOrdinary (e : Name × UserDatum) : Prop where
  name : e.1 ≠ []
  roles : BitmapStored e.2.roles
  range : RangeStored e.2.range
  dfltlevel : LevelStored e.2.dfltlevel

theorem user_carries {e : Name × UserDatum} (mls : policydbVersionMls ≤ vers)
    (read : userReadDatum vers bytes = .ok (e, rest)) (ordinary : UserOrdinary e) :
    Carries einval (userWrite vers e) (userReadDatum vers) e := by
  simp only [userReadDatum, ByteReader.bind_ok, ByteReader.pure_ok] at read
  obtain ⟨len, _, -, value, _, -, bounds, _, bounded, key, _, named, roles, _, -, ⟨range, dfltlevel⟩, _, -, rfl, -⟩ :=
    read
  have name := strRead_stored named ordinary.name
  refine (u32_carries (BitVec.ofNat 32 key.length)).cons ((u32_carries value).cons ((bounds_carry bounded).cons
    ((name_carries name).cons (ordinary.roles.carries.cons ?_))))
  have levels : Carries einval (ByteWriter.seq [mlsWriteRangeHelper range, mlsLevelWrite dfltlevel])
      (userReadMls vers) (range, dfltlevel) := by
    unfold userReadMls
    rw [if_pos mls]
    refine (range_carries ordinary.range).cons ?_
    exact ((level_carries ordinary.dfltlevel).map (g := fun dfltlevel => (range, dfltlevel))).last
  exact levels.map (g := fun levels : MlsRange × MlsLevel =>
    (key, ({ value, bounds, roles, range := levels.1, dfltlevel := levels.2 } : UserDatum)))

theorem bool_carries {e : Name × CondBoolDatum} (name : Stored e.1) (state : e.2.state = 0 ∨ e.2.state = 1) :
    Carries einval (condWriteBool e) condReadBoolDatum e := by
  refine (u32_carries e.2.value).cons ((u32_carries e.2.state).cons
    ((u32_carries (BitVec.ofNat 32 e.1.length)).cons (.require state ?_)))
  exact ((name_carries name).map (g := fun key => (key, e.2))).last

theorem boolRead_name {e : Name × CondBoolDatum} (read : condReadBoolDatum bytes = .ok (e, rest)) (some : e.1 ≠ []) :
    Stored e.1 := by
  simp only [condReadBoolDatum, ByteReader.bind_ok, ByteReader.pure_ok] at read
  obtain ⟨_, _, -, _, _, -, _, _, -, _, _, -, key, _, named, rfl, -⟩ := read
  exact strRead_stored named some

theorem sens_carries {e : Name × LevelDatum} (read : sensReadDatum bytes = .ok (e, rest)) (some : e.1 ≠ [])
    (level : LevelStored e.2.level) : Carries einval (sensWrite e) sensReadDatum e := by
  simp only [sensReadDatum, ByteReader.bind_ok, ByteReader.pure_ok] at read
  obtain ⟨len, _, -, isalias, _, -, key, _, named, levelRead, _, -, rfl, -⟩ := read
  have name := strRead_stored named some
  refine (u32_carries (BitVec.ofNat 32 key.length)).cons ((u32_carries ((isalias.truncate 8).zeroExtend 32)).cons
    ((name_carries name).cons ?_))
  rw [truncate_zeroExtend (by omega)]
  exact ((level_carries level).map (g := fun level =>
    (key, ({ level, isalias := isalias.truncate 8 } : LevelDatum)))).last

theorem cat_carries {e : Name × CatDatum} (read : catReadDatum bytes = .ok (e, rest)) (some : e.1 ≠ []) :
    Carries einval (catWrite e) catReadDatum e := by
  simp only [catReadDatum, ByteReader.bind_ok, ByteReader.pure_ok] at read
  obtain ⟨len, _, -, value, _, -, isalias, _, -, key, _, named, rfl, -⟩ := read
  have name := strRead_stored named some
  refine (u32_carries (BitVec.ofNat 32 key.length)).cons ((u32_carries value).cons
    ((u32_carries ((isalias.truncate 8).zeroExtend 32)).cons ?_))
  rw [truncate_zeroExtend (by omega)]
  exact ((name_carries name).map (g := fun key =>
    (key, ({ value, isalias := isalias.truncate 8 } : CatDatum)))).last

end Symbols

section Roles

variable {δ : Type} {h h' : Hashtab Name δ} {s s₀ : Symtab RoleDatum}

/-- A table is determined by its size and what is in it. -/
theorem tables_agree (ok : TableOk h) (ok' : TableOk h') (size : h'.size = h.size) (nel : h'.nel = h.nel)
    (same : ∀ e, e ∈ h'.entries ↔ e ∈ h.entries) : h' = h := by
  suffices chains : h'.htable = h.htable by
    cases h
    cases h'
    cases chains
    cases nel
    rfl
  refine List.ext_getElem size fun i inside' inside => ?_
  have chain : ∀ e, e ∈ h'.htable.getD i [] ↔ e ∈ h.htable.getD i [] := fun e => by
    rw [mem_chain_iff ok'.placed, mem_chain_iff ok.placed, same, hashtabSlot_size size]
  rw [List.getD_eq_getElem _ _ inside', List.getD_eq_getElem _ _ inside] at chain
  have sorted := ok.sorted i
  have sorted' := ok'.sorted i
  rw [List.getD_eq_getElem _ _ inside] at sorted
  rw [List.getD_eq_getElem _ _ inside'] at sorted'
  have asymm : Std.Asymm fun a b : Name × δ => a.1.map BitVec.toNat < b.1.map BitVec.toNat :=
    ⟨fun _ _ less greater => lt_asymm less greater⟩
  have irrefl : Std.Irrefl fun a b : Name × δ => a.1.map BitVec.toNat < b.1.map BitVec.toNat :=
    ⟨fun _ less => lt_irrefl _ less⟩
  exact List.Pairwise.eq_of_mem_iff sorted' sorted chain

/-- No name is twice in a table. -/
theorem names_distinct (ok : TableOk h) : (h.entries.map Prod.fst).Nodup := by
  have apart : ∀ {l : List (Name × δ)}, NamesSorted l → l.Pairwise fun a b => a.1 ≠ b.1 := fun sorted =>
    sorted.imp fun less same => by
      rw [same] at less
      exact lt_irrefl _ less
  unfold List.Nodup
  rw [List.pairwise_map, Hashtab.entries, List.pairwise_flatten]
  constructor
  · intro chain member
    obtain ⟨i, inside, rfl⟩ := List.mem_iff_getElem.mp member
    have sorted := ok.sorted i
    rw [List.getD_eq_getElem _ _ inside] at sorted
    exact apart sorted
  · rw [List.pairwise_iff_getElem]
    intro i j belowI belowJ less a inI b inJ same
    rw [← List.getD_eq_getElem _ [] belowI] at inI
    rw [← List.getD_eq_getElem _ [] belowJ] at inJ
    have slotI := ok.placed i a inI
    have slotJ := ok.placed j b inJ
    rw [same] at slotI
    omega

/-- Names that are not in a table are let in. -/
theorem inserts_all (values : List (Name × δ)) (ok : TableOk h) (some : h.size ≠ 0)
    (distinct : (values.map Prod.fst).Nodup) (fresh : ∀ e ∈ values, ∀ other ∈ h.entries, e.1 ≠ other.1)
    (room : h.nel + values.length ≤ hashtabMaxNodes) :
    ∃ h', values.foldlM (fun t e => hashtabInsert symtabKeyParams t e.1 e.2) h = .ok h' ∧ TableOk h' ∧
      h'.size = h.size ∧ h'.nel = h.nel + values.length ∧ ∀ e, e ∈ h'.entries ↔ e ∈ values ∨ e ∈ h.entries := by
  induction values generalizing h with
  | nil => exact ⟨h, rfl, ok, rfl, rfl, fun e => by simp⟩
  | cons e values ih =>
    rw [List.map_cons, List.nodup_cons] at distinct
    rw [List.length_cons] at room
    have inserted : ∃ h', hashtabInsert symtabKeyParams h e.1 e.2 = .ok h' := by
      unfold hashtabInsert
      rw [if_neg (by omega)]
      cases linked : hashtabChainInsert symtabKeyParams.cmp e.1 e.2 (h.htable.getD (hashtabSlot symtabKeyParams h e.1) [])
      with
      | ok chain => exact ⟨_, rfl⟩
      | error refusal =>
        obtain ⟨-, cur, member, equal⟩ := HashtabMaps.chainInsert_error linked
        have inside := ((mem_chain_iff ok.placed).mp member).1
        exact absurd (strcmp_agrees.same.mp equal) (fresh e List.mem_cons_self cur inside)
    obtain ⟨mid, once⟩ := inserted
    obtain ⟨midOk, perm⟩ := hashtabInsert_ok ok once
    have step := hashtabInsert_inserted once
    have count := step.count
    obtain ⟨h', more, ok', size, nel, mem⟩ := ih midOk (by rw [step.size]; exact some) distinct.2
      (fun other member third inside => by
        rcases List.mem_cons.mp (perm.mem_iff.mp inside) with rfl | old
        · exact fun same => distinct.1 (same ▸ List.mem_map_of_mem member)
        · exact fresh other (List.mem_cons_of_mem _ member) third old)
      (by omega)
    refine ⟨h', ?_, ok', size.trans step.size, ?_, fun other => ?_⟩
    · rw [List.foldlM_cons, once]
      exact more
    · rw [nel, List.length_cons]
      omega
    · rw [mem, perm.mem_iff, List.mem_cons, List.mem_cons]
      tauto

/-- What `roles_init` puts in the table. -/
def objectRole : Name × RoleDatum :=
  (objectR, { value := objectRVal, bounds := 0, dominates := ebitmapInit, types := ebitmapInit })

/-- The table of the roles, which has `object_r` whatever the file has. -/
structure RolesStored (vers : U32) (s : Symtab RoleDatum) : Prop where
  ok : TableOk s.table
  some : s.table.size ≠ 0
  fits : s.table.size ≤ hashtabMaxSize
  count : s.table.nel = s.table.entries.length
  limit : s.table.nel ≤ hashtabMaxNodes
  object : objectRole ∈ s.table.entries
  each : ∀ e ∈ s.table.entries, (e.1 ≠ [] → Stored e.1) ∧
    Carries einval (boundsWrite vers e.2.bounds) (boundsRead vers) e.2.bounds

theorem objectRole_read (vers : U32) : (objectRole.1 ≠ [] → Stored objectRole.1) ∧
    Carries einval (boundsWrite vers objectRole.2.bounds) (boundsRead vers) objectRole.2.bounds := by
  refine ⟨fun some => ⟨some, by decide, by decide⟩, ?_⟩
  unfold boundsWrite boundsRead
  split
  · exact u32_carries 0
  · exact .pure 0

theorem RolesStored.insert {s' : Symtab RoleDatum} {e : Name × RoleDatum} (stored : RolesStored vers s)
    (read : (e.1 ≠ [] → Stored e.1) ∧ Carries einval (boundsWrite vers e.2.bounds) (boundsRead vers) e.2.bounds)
    (inserted : symtabInsert s e.1 e.2 = .ok s') : RolesStored vers s' := by
  obtain ⟨-, ok, perm⟩ := symtabInsert_ok stored.ok inserted
  unfold symtabInsert at inserted
  split at inserted
  · cases inserted
  rename_i table linked
  cases inserted
  have step := hashtabInsert_inserted linked
  have room : s.table.nel ≠ hashtabMaxNodes := fun full => by
    unfold hashtabInsert at linked
    rw [if_pos (.inr full)] at linked
    cases linked
  have limit := stored.limit
  refine ⟨ok, ?_, ?_, ?_, ?_, perm.mem_iff.mpr (List.mem_cons_of_mem _ stored.object), fun other member => ?_⟩
  · exact step.size ▸ stored.some
  · exact step.size ▸ stored.fits
  · change table.nel = table.entries.length
    rw [step.count, step.perm.length_eq, List.length_cons, stored.count]
  · change table.nel ≤ hashtabMaxNodes
    rw [step.count]
    omega
  · rcases List.mem_cons.mp (perm.mem_iff.mp member) with rfl | old
    · exact read
    · exact stored.each other old

/-- The fresh table of the roles. -/
theorem rolesInit_made (vers : U32) {nel : U32} {s' : Symtab RoleDatum} (made : symtabInit nel = .ok s₀)
    (init : rolesInit s₀ = .ok s') :
    RolesStored vers s' ∧ s'.table.size = hashtabComputeSize nel ∧ s'.table.nel = 1 ∧
      ∀ e, e ∈ s'.table.entries ↔ e = objectRole := by
  obtain ⟨size, fits, none, nprim⟩ := symtabInit_size made
  obtain ⟨ok, empty⟩ := symtabInit_ok made
  unfold rolesInit at init
  simp only [nprim] at init
  rw [if_neg (by decide)] at init
  obtain ⟨-, ok', perm⟩ := symtabInsert_ok (s := { s₀ with nprim := 0 + 1 }) ok init
  change s'.table.entries.Perm (objectRole :: s₀.table.entries) at perm
  rw [empty] at perm
  have linked : hashtabInsert symtabKeyParams s₀.table objectRole.1 objectRole.2 = .ok s'.table := by
    unfold symtabInsert at init
    split at init
    · cases init
    · rename_i table linked
      cases init
      exact linked
  have step := hashtabInsert_inserted linked
  have members : ∀ e, e ∈ s'.table.entries ↔ e = objectRole := fun e => by
    rw [perm.mem_iff, List.mem_singleton]
  have count : s'.table.nel = 1 := by rw [step.count, none]
  refine ⟨⟨ok', ?_, ?_, ?_, ?_, (members _).mpr rfl, fun e member => ?_⟩, step.size.trans size, count, members⟩
  · rw [step.size]
    exact step.some
  · rw [step.size]
    exact fits
  · rw [count, perm.length_eq]
    rfl
  · rw [count]
    decide
  · rw [(members e).mp member]
    exact objectRole_read vers

theorem roles_stored (read : symtabRead rolesInit (roleRead vers) bytes = .ok (s, rest)) : RolesStored vers s := by
  simp only [symtabRead, ByteReader.bind_ok, ByteReader.pure_ok, ByteReader.lift_ok] at read
  obtain ⟨nprim, _, -, nel, _, -, s₀, _, ⟨made, rfl⟩, s₁, _, ⟨init, rfl⟩, s₂, _, loop, rfl, -⟩ := read
  have first : RolesStored vers s₁ := (rolesInit_made vers made init).1
  have last : RolesStored vers s₂ := ByteReader.times_preserves (fun s => RolesStored vers s)
    (fun s bytes s' rest before once => by
      simp only [roleRead, ByteReader.bind_ok] at once
      obtain ⟨⟨key, role⟩, _, item, once⟩ := once
      split at once
      · simp only [ByteReader.bind_ok, ByteReader.pure_ok] at once
        obtain ⟨_, _, -, rfl, -⟩ := once
        exact before
      · exact before.insert (roleRead_name item) (ByteReader.lift_ok.mp once).1) first loop
  exact ⟨last.ok, last.some, last.fits, last.count, last.limit, last.object, last.each⟩

/-- A role that is read back into the table. -/
def nextRole (s : Symtab RoleDatum) (e : Name × RoleDatum) : Except Fault (Symtab RoleDatum) :=
  if e.1 = objectR then .ok s else symtabInsert s e.1 e.2

theorem nextRole_filter (entries : List (Name × RoleDatum)) (s : Symtab RoleDatum) :
    entries.foldlM nextRole s =
      (entries.filter fun e => e.1 ≠ objectR).foldlM (fun s e => symtabInsert s e.1 e.2) s := by
  induction entries generalizing s with
  | nil => rfl
  | cons e entries ih =>
    rw [List.foldlM_cons]
    unfold nextRole
    by_cases object : e.1 = objectR
    · rw [if_pos object, List.filter_cons_of_neg (by simpa using object)]
      exact ih s
    · rw [if_neg object, List.filter_cons_of_pos (by simpa using object), List.foldlM_cons]
      exact bind_congr fun mid => ih mid

/-- The name of `object_r` has one entry. -/
theorem RolesStored.object_only (stored : RolesStored vers s) {e : Name × RoleDatum} (member : e ∈ s.table.entries)
    (object : e.1 = objectR) : e = objectRole := by
  have here := (symtabSearch_iff stored.ok).mpr stored.object
  have there := (symtabSearch_iff stored.ok).mpr (show (objectR, e.2) ∈ s.table.entries from object ▸ member)
  change symtabSearch s objectR = _ at here
  rw [here] at there
  exact Prod.ext object (Option.some.inj there).symm

/-- A table with room has a place for `object_r`. -/
theorem rolesInit_ok {nel : U32} (made : symtabInit nel = .ok s₀) (room : hashtabComputeSize nel ≠ 0) :
    ∃ s₁, rolesInit s₀ = .ok s₁ := by
  obtain ⟨size, -, none, nprim⟩ := symtabInit_size made
  obtain ⟨ok, empty⟩ := symtabInit_ok made
  obtain ⟨table, linked, -⟩ := inserts_all [objectRole] ok (by rw [size]; exact room) (by simp)
    (fun _ _ other inside => by
      rw [empty] at inside
      cases inside)
    (by rw [none]; decide)
  rw [List.foldlM_cons, exceptBind_ok] at linked
  obtain ⟨table', once, -⟩ := linked
  have inserted : symtabInsert { s₀ with nprim := 0 + 1 } objectR objectRole.2 =
      .ok { table := table', nprim := 0 + 1 } := symtabInsert_table once
  refine ⟨{ table := table', nprim := 0 + 1 }, ?_⟩
  unfold rolesInit
  simp only [nprim]
  rw [if_neg (by decide)]
  exact inserted

theorem roles_carry (stored : RolesStored vers s)
    (sized : s.table.size = hashtabComputeSize (BitVec.ofNat 32 s.table.nel))
    (ordinary : ∀ e ∈ s.table.entries, RoleOrdinary e) :
    Carries einval (symtabWrite (roleWrite vers) s) (symtabRead rolesInit (roleRead vers)) s := by
  have limit := stored.limit
  have limited : hashtabMaxNodes = 0xffffffff := rfl
  have count : (BitVec.ofNat 32 s.table.nel).toNat = s.table.entries.length := by
    rw [BitVec.toNat_ofNat, Nat.mod_eq_of_lt (by omega), stored.count]
  have made : ∃ s₀ : Symtab RoleDatum, symtabInit (BitVec.ofNat 32 s.table.nel) = .ok s₀ := by
    unfold symtabInit hashtabInit
    simp only [← sized]
    rw [if_neg (Nat.not_lt_of_le stored.fits)]
    exact ⟨_, rfl⟩
  obtain ⟨s₀, made⟩ := made
  obtain ⟨s₁, init⟩ := rolesInit_ok made (by rw [← sized]; exact stored.some)
  obtain ⟨first, size, one, members⟩ := rolesInit_made vers made init
  -- all but `object_r`, which is there
  have distinct := names_distinct stored.ok
  have others : s.table.entries.Perm (objectRole :: s.table.entries.filter fun e => e.1 ≠ objectR) := by
    have apart : objectRole ∉ s.table.entries.filter fun e => e.1 ≠ objectR := fun member => by
      have := (List.mem_filter.mp member).2
      simp [objectRole] at this
    refine (List.perm_ext_iff_of_nodup distinct.of_map
      (List.nodup_cons.mpr ⟨apart, distinct.of_map.filter _⟩)).mpr fun e => ?_
    rw [List.mem_cons, List.mem_filter]
    constructor
    · intro inside
      by_cases object : e.1 = objectR
      · exact .inl (stored.object_only inside object)
      · exact .inr ⟨inside, by simpa using object⟩
    · rintro (rfl | inside)
      · exact stored.object
      · exact inside.1
  have length := others.length_eq
  rw [List.length_cons] at length
  obtain ⟨table, run, ok, sameSize, nel, mem⟩ := inserts_all
    (s.table.entries.filter fun e => e.1 ≠ objectR) first.ok first.some
    (distinct.sublist (List.Sublist.map _ List.filter_sublist)) (fun e member other inside => by
      rw [(members other).mp inside]
      change e.1 ≠ objectR
      simpa using (List.mem_filter.mp member).2)
    (by
      rw [one]
      have := stored.count
      omega)
  have same : table = s.table := by
    refine tables_agree stored.ok ok (by rw [sameSize, size, ← sized]) ?_ fun e => ?_
    · rw [nel, one, stored.count, length]
      omega
    · rw [mem, members, others.mem_iff, List.mem_cons]
      exact or_comm
  rw [same] at run
  have rounds : s.table.entries.foldlM nextRole s₁ = .ok { s₁ with table := s.table } := by
    rw [nextRole_filter]
    exact symtab_inserts run
  refine (u32_carries s.nprim).cons ((u32_carries _).cons (.lift made (.lift init ?_)))
  rw [count]
  have related : List.Forall₂ (fun e e' => e' = e ∧ e ∈ s.table.entries) s.table.entries s.table.entries :=
    List.forall₂_same.mpr fun e member => ⟨rfl, member⟩
  have loop : Carries einval (ByteWriter.each (roleWrite vers) s.table.entries)
      (ByteReader.times (roleRead vers) s.table.entries.length s₁) { s₁ with table := s.table } :=
    Carries.times related (fun t e e' t' pair next => by
      obtain ⟨rfl, member⟩ := pair
      obtain ⟨name, bounds⟩ := stored.each e' member
      obtain ⟨text, emits, takes⟩ := role_carries (name (ordinary e' member).name) bounds (ordinary e' member)
      refine ⟨text, emits, fun rest => ByteReader.bind_ok.mpr ⟨e', rest, takes rest, ?_⟩⟩
      unfold nextRole at next
      split at next
      · rename_i object
        cases next
        have value : e'.2.value = objectRVal := by rw [stored.object_only member object]; rfl
        simp only [if_pos object]
        exact ByteReader.bind_ok.mpr ⟨(), _, ByteReader.require_ok.mpr ⟨value, rfl⟩, ByteReader.pure_ok.mpr ⟨rfl, rfl⟩⟩
      · rename_i apart
        simp only [if_neg apart]
        exact ByteReader.lift_ok.mpr ⟨next, rfl⟩) rounds
  exact (loop.map (g := fun t => { t with nprim := s.nprim })).last

end Roles

end Ksrc.Guarantees.SymbolFiles

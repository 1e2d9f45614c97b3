import Ksrc.Guarantees.AvRuleSets
import Ksrc.Guarantees.CondSwitches
import Ksrc.Guarantees.FilenameFiles
import Ksrc.Guarantees.IndexedArrays
import Ksrc.Guarantees.RuleLog
import Ksrc.Guarantees.SymtabFiles
import Ksrc.Guarantees.TransitionFiles

/-!
# A policy that is written and loaded again

Source: `security/selinux/ss/policydb.c` (`policydb_read`, `policydb_write`), `services.c`
(`security_read_policy`).

Every section of a policy in force is read back as it is, but for the table of the unconditional rules: its
entries are written in the order of its chains, and come to their chains in that order.
-/
namespace Ksrc.Guarantees.PolicyFiles

open Library Source AvtabEnumeration EbitmapBits IndexedArrays
  PoliciesInForce PolicyCodecs PolicydbShape
  SymbolFiles

variable {p p' : Policydb} {bytes rest : List U8} {info : PolicydbCompatInfo}

section Header

/-- What the start of a file has of a policy. -/
structure HeaderStored (p : Policydb) : Prop where
  least : policydbVersionMin ≤ p.policyvers
  most : p.policyvers ≤ policydbVersionMax
  mls : p.mlsEnabled = true → policydbVersionMls ≤ p.policyvers
  policycaps : ¬ policydbVersionPolcap ≤ p.policyvers → p.policycaps = ebitmapInit
  permissive : ¬ policydbVersionPermissive ≤ p.policyvers → p.permissiveMap = ebitmapInit

/-- A policy with nothing but its header. -/
def headerOf (p : Policydb) : Policydb :=
  { policydbInit with
    policyvers := p.policyvers, mlsEnabled := p.mlsEnabled, policycaps := p.policycaps
    permissiveMap := p.permissiveMap, rejectUnknown := p.rejectUnknown, allowUnknown := p.allowUnknown }

theorem magic_carries : Carries einval
    (ByteWriter.seq [putU32 policydbMagic, putCount policydbString.length, putStr policydbString])
    policydbReadMagic () := by
  unfold policydbReadMagic
  refine (u32_carries policydbMagic).cons ((u32_carries _).cons (.require rfl (.require rfl ?_)))
  refine Carries.last (.put fun rest => ?_)
  refine ByteReader.bind_ok.mpr ⟨policydbString, rest, ByteReader.bytes_ok.mpr ⟨rfl, rfl⟩, ?_⟩
  exact ByteReader.require_ok.mpr ⟨by decide, rfl⟩

/-- The flags of the configuration word. -/
theorem config_flags (p : Policydb) :
    decide (policydbConfig p &&& policydbConfigMls ≠ 0) = p.mlsEnabled ∧
      decide (policydbConfig p &&& rejectUnknownFlag ≠ 0) = p.rejectUnknown ∧
        decide (policydbConfig p &&& allowUnknownFlag ≠ 0) = p.allowUnknown := by
  unfold policydbConfig
  cases p.mlsEnabled <;> cases p.rejectUnknown <;> cases p.allowUnknown
  all_goals decide

theorem optional_bitmap {e : Ebitmap} (there : Prop) [Decidable there] (stored : there → BitmapStored e)
    (absent : ¬ there → e = ebitmapInit) :
    Carries einval (if there then ebitmapWrite e else ByteWriter.skip)
      (if there then ebitmapRead else pure ebitmapInit) e := by
  by_cases here : there
  · rw [if_pos here, if_pos here]
    exact (stored here).carries
  · rw [if_neg here, if_neg here, absent here]
    exact .pure _

theorem compat_small (compat : policydbLookupCompat p.policyvers = some info) :
    (BitVec.ofNat 32 info.symNum).toNat = info.symNum ∧ (BitVec.ofNat 32 info.oconNum).toNat = info.oconNum := by
  unfold policydbLookupCompat at compat
  have all : policydbCompat.all fun info => decide ((BitVec.ofNat 32 info.symNum).toNat = info.symNum ∧
      (BitVec.ofNat 32 info.oconNum).toNat = info.oconNum) := by decide
  exact of_decide_eq_true (List.all_eq_true.mp all info (List.mem_of_find?_eq_some compat))

theorem header_carries (stored : HeaderStored p) (compat : policydbLookupCompat p.policyvers = some info)
    (policycaps : policydbVersionPolcap ≤ p.policyvers → BitmapStored p.policycaps)
    (permissive : policydbVersionPermissive ≤ p.policyvers → BitmapStored p.permissiveMap) :
    Carries einval (policydbWriteHeader p info) policydbReadHeader (headerOf p, info) := by
  obtain ⟨mls, reject, allow⟩ := config_flags p
  obtain ⟨syms, ocons⟩ := compat_small compat
  have split : policydbWriteHeader p info = ByteWriter.seq
      (ByteWriter.seq [putU32 policydbMagic, putCount policydbString.length, putStr policydbString] ::
        [putU32 p.policyvers, putU32 (policydbConfig p), putCount info.symNum, putCount info.oconNum,
          if policydbVersionPolcap ≤ p.policyvers then ebitmapWrite p.policycaps else ByteWriter.skip,
          if policydbVersionPermissive ≤ p.policyvers then ebitmapWrite p.permissiveMap else ByteWriter.skip]) := by
    rw [seq_seq]
    rfl
  rw [split]
  unfold policydbReadHeader
  refine magic_carries.cons ((u32_carries p.policyvers).cons ((u32_carries (policydbConfig p)).cons
    ((u32_carries _).cons ((u32_carries _).cons (.require ⟨stored.least, stored.most⟩ (.require ?_
      ((optional_bitmap _ policycaps stored.policycaps).cons ?_)))))))
  · rw [mls]
    exact stored.mls
  obtain ⟨text, emits, takes⟩ := (optional_bitmap _ permissive stored.permissive).last
  refine ⟨text, emits, fun rest => ByteReader.bind_ok.mpr ⟨p.permissiveMap, rest, takes rest, ?_⟩⟩
  simp only [compat, mls, reject, allow]
  exact ByteReader.bind_ok.mpr ⟨(), rest, ByteReader.require_ok.mpr ⟨⟨syms, ocons⟩, rfl⟩,
    ByteReader.pure_ok.mpr ⟨rfl, rfl⟩⟩

theorem policydbReadHeader_stored (read : policydbReadHeader bytes = .ok ((p, info), rest)) : HeaderStored p := by
  simp only [policydbReadHeader, ByteReader.bind_ok, ByteReader.require_ok] at read
  obtain ⟨_, _, -, policyvers, _, -, config, _, -, syms, _, -, ocons, _, -, _, _, ⟨⟨least, most⟩, -⟩, _, _, ⟨mls, -⟩,
    policycaps, _, caps, permissive, _, permits, read⟩ := read
  cases found : policydbLookupCompat policyvers with
  | none => simp only [found, ByteReader.fail_ok] at read
  | some compat =>
    simp only [found, ByteReader.bind_ok, ByteReader.pure_ok] at read
    obtain ⟨_, _, -, made, -⟩ := read
    cases made
    refine ⟨least, most, mls, fun old => ?_, fun old => ?_⟩
    · rw [if_neg old] at caps
      exact (ByteReader.pure_ok.mp caps).1.symm
    · rw [if_neg old] at permits
      exact (ByteReader.pure_ok.mp permits).1.symm

end Header

section Attributes

variable {vers : U32} {e : Ebitmap} {maps : List Ebitmap} {i left : Nat}

theorem setBitNodes_has {b : Nat} (small : b < 2 ^ 32) (nodes : List EbitmapNode) :
    InNodes (ebitmapSetBitNodes b nodes).1 b := by
  induction nodes with
  | nil => exact inNodes_cons.mpr (.inl ((inNode_newNode small).mpr rfl))
  | cons n nodes ih =>
    unfold ebitmapSetBitNodes
    split
    · rename_i lower
      split
      · rename_i upper
        exact inNodes_cons.mpr (.inl ((inNode_setBit lower upper).mpr (.inl rfl)))
      · exact inNodes_cons.mpr (.inr ih)
    · exact inNodes_cons.mpr (.inl ((inNode_newNode small).mpr rfl))

/-- The maps of the types from `i` on, each with the bit of its own type. -/
theorem typeAttrMaps_own (small : i + left < 2 ^ 32) (read : typeAttrMapsRead vers left i bytes = .ok (maps, rest)) :
    maps.length = left ∧ ∀ k e, maps[k]? = some e → InBitmap e (i + k) := by
  induction left generalizing i bytes maps rest with
  | zero =>
    obtain ⟨rfl, -⟩ := ByteReader.pure_ok.mp read
    exact ⟨rfl, fun k e there => by simp at there⟩
  | succ left ih =>
    simp only [typeAttrMapsRead, typeAttrMapRead, ByteReader.bind_ok, ByteReader.pure_ok] at read
    obtain ⟨_, _, ⟨e₀, _, -, rfl, -⟩, others, _, more, rfl, -⟩ := read
    obtain ⟨length, own⟩ := ih (by omega) more
    refine ⟨by rw [List.length_cons, length], fun k e there => ?_⟩
    cases k with
    | zero =>
      rw [List.getElem?_cons_zero] at there
      cases there
      unfold InBitmap ebitmapSetBit
      rw [if_pos rfl]
      exact setBitNodes_has (by omega) e₀.node
    | succ k =>
      rw [List.getElem?_cons_succ] at there
      have inside := own k e there
      rwa [Nat.add_right_comm] at inside

theorem setBit_same {b : Nat} (stored : BitmapStored e) (inside : InBitmap e b) : ebitmapSetBit e b true = e := by
  have small := stored.small b inside
  have size : ebitmapSize = 384 := rfl
  have part := Nat.mod_le b ebitmapSize
  obtain ⟨made, bits⟩ := setBit_canonical stored.canonical (b := b) (by omega)
  refine canonical_ext made stored.canonical fun x => ?_
  rw [bits]
  constructor
  · rintro (rfl | before)
    · exact inside
    · exact before
  · exact .inr

theorem typeAttrMaps_carry (newer : policydbVersionAvtab ≤ vers) (listed : ∀ k, k < left → p.typeAttrMapArray[i + k]? = maps[k]?)
    (length : maps.length = left) (stored : ∀ e ∈ maps, BitmapStored e)
    (own : ∀ k e, maps[k]? = some e → InBitmap e (i + k)) :
    Carries einval (ByteWriter.each (typeAttrMapWrite p) (List.range' i left)) (typeAttrMapsRead vers left i) maps := by
  induction left generalizing i maps with
  | zero =>
    rw [List.length_eq_zero_iff.mp length]
    exact .pure _
  | succ left ih =>
    cases maps with
    | nil => cases length
    | cons e maps =>
      have here := listed 0 (Nat.zero_lt_succ left)
      have set := own 0 e rfl
      rw [Nat.add_zero, List.getElem?_cons_zero] at here
      rw [Nat.add_zero] at set
      have first : Carries einval (typeAttrMapWrite p i) (typeAttrMapRead vers i) e := by
        unfold typeAttrMapWrite typeAttrMapRead
        simp only [here, if_pos newer]
        have carried := (stored e List.mem_cons_self).carries.map (g := fun e => ebitmapSetBit e i true)
        rw [setBit_same (stored e List.mem_cons_self) set] at carried
        exact carried
      have more := @ih maps (i + 1)
        (fun k inside => by
          rw [Nat.add_right_comm]
          exact listed (k + 1) (Nat.succ_lt_succ inside))
        (by rw [List.length_cons] at length; omega)
        (fun e member => stored e (List.mem_cons_of_mem _ member))
        (fun k e there => by
          rw [Nat.add_right_comm]
          exact own (k + 1) e there)
      exact first.andThen (more.map (g := fun maps => e :: maps))

end Attributes

section Conditionals

open CondFiles RuleFiles

variable {te te' : Avtab} {conds : List RawCond}

/-- Two tables of unconditional rules that offer the same rules for every key. -/
structure SameRuleTables (te te' : Avtab) : Prop where
  nel : te'.nel = te.nel
  rules : ∀ key, ((avtabMatches te' key).map rule).Perm ((avtabMatches te key).map rule)

theorem SameRuleTables.found (same : SameRuleTables te te') (key : AvtabKey) :
    (avtabSearchNode te' key).isSome = (avtabSearchNode te key).isSome := by
  have perm := same.rules key
  have none : avtabMatches te' key = [] ↔ avtabMatches te key = [] := by
    constructor
    · intro empty
      rw [empty] at perm
      exact List.map_eq_nil_iff.mp (List.nil_perm.mp perm)
    · intro empty
      rw [empty] at perm
      exact List.map_eq_nil_iff.mp (List.perm_nil.mp perm)
  rw [← RuleLog.avtabSearchNode_none, ← RuleLog.avtabSearchNode_none] at none
  cases found' : avtabSearchNode te' key with
  | none =>
    rw [none.mp found']
  | some pair =>
    cases found : avtabSearchNode te key with
    | none =>
      rw [none.mpr found] at found'
      cases found'
    | some pair => rfl

/-- Conditionals are let in by what searches of the unconditional rules find. -/
theorem replay_same (same : SameRuleTables te te') : replay te' conds = replay te conds := by
  have inserts : condInsertf te' = condInsertf te := by
    funext other k d st
    unfold condInsertf condInsertfCheck
    rw [same.found]
  have step : condNodeStep te' = condNodeStep te := by
    unfold condNodeStep condStep
    rw [inserts]
  unfold replay
  rw [step, same.nel]

theorem condsFrom_tables {q : Policydb} (from_conds : CondsFrom p conds) (checks : SameChecks q p)
    (te : SameRuleTables p.teAvtab q.teAvtab) (table : q.teCondAvtab = p.teCondAvtab) (list : q.condList = p.condList) :
    CondsFrom q conds := by
  refine ⟨fun c member => rawValid_same checks (from_conds.valid c member), from_conds.few, ?_⟩
  rw [replay_same te, table, list]
  exact from_conds.replayed

end Conditionals

section Facts

/-- What every policy in force has from the file that it was loaded from. -/
structure FileFacts (p : Policydb) : Prop where
  header : HeaderStored p
  len : p.len = 0
  known : p.processClass ≠ 0
  process : p.processClass = stringToSecurityClass p processName
  transPerms : processTransPerms p = .ok p.processTransPerms
  checked : policydbBoundsSanityCheck p = .ok ()
  rules : ∃ bytes rest, avtabRead p bytes = .ok (p.teAvtab, rest)
  attrs : ∃ bytes rest, typeAttrMapsRead p.policyvers p.pTypes.nprim.toNat 0 bytes = .ok (p.typeAttrMapArray, rest)
  oldNames : p.policyvers < policydbVersionFilenameTrans →
    p.filenameTrans = hashtabZero ∧ p.filenameTransTtypes = ebitmapInit ∧ p.compatFilenameTransCount = 0
  newNames : policydbVersionCompFtrans ≤ p.policyvers → p.compatFilenameTransCount = 0

theorem filenameTransRead_kept {q q' : Policydb} (read : filenameTransRead q bytes = .ok (q', rest)) :
    (q.policyvers < policydbVersionFilenameTrans → q' = q) ∧
      (policydbVersionCompFtrans ≤ q.policyvers → q'.compatFilenameTransCount = q.compatFilenameTransCount) := by
  unfold filenameTransRead at read
  split at read
  · obtain ⟨rfl, -⟩ := ByteReader.pure_ok.mp read
    exact ⟨fun _ => rfl, fun _ => rfl⟩
  · rename_i named
    simp only [ByteReader.bind_ok] at read
    obtain ⟨nel, _, -, read⟩ := read
    refine ⟨fun old => absurd old named, fun new => ?_⟩
    rw [if_neg (BitVec.not_lt.mpr new)] at read
    simp only [ByteReader.bind_ok, ByteReader.pure_ok] at read
    obtain ⟨_, _, -, _, _, -, rfl, -⟩ := read
    rfl

theorem policydbRead_facts (read : policydbRead bytes = .ok (p, rest)) : FileFacts p := by
  obtain ⟨s, rfl⟩ := policydbRead_steps read
  obtain ⟨r, made⟩ := policydbReadRules_steps s.rules
  have frame := r.frame
  rw [r.condsRead.2] at frame
  have tables := (symtabsRead_ok r.symtabs).1
  have start := policydbReadHeader_made r.header
  have stored := policydbReadHeader_stored r.header
  have shape := policydbReadRules_shape s.rules
  have header : s.q.policyvers = r.p₀.policyvers ∧ s.q.mlsEnabled = r.p₀.mlsEnabled ∧
      s.q.policycaps = r.p₀.policycaps ∧ s.q.permissiveMap = r.p₀.permissiveMap ∧ s.q.len = r.p₀.len ∧
      r.p₂.policyvers = r.p₀.policyvers ∧ r.p₂.filenameTrans = r.p₀.filenameTrans ∧
      r.p₂.filenameTransTtypes = r.p₀.filenameTransTtypes ∧
      r.p₂.compatFilenameTransCount = r.p₀.compatFilenameTransCount := by
    rw [made, frame, r.condsRead.2, tables]
    exact ⟨rfl, rfl, rfl, rfl, rfl, rfl, rfl, rfl, rfl⟩
  obtain ⟨vers, mls, policycaps, permissive, len, vers₂, names₂, ttypes₂, count₂⟩ := header
  have fresh : r.p₀.len = 0 ∧ r.p₀.filenameTrans = hashtabZero ∧ r.p₀.filenameTransTtypes = ebitmapInit ∧
      r.p₀.compatFilenameTransCount = 0 := by
    rw [start]
    exact ⟨rfl, rfl, rfl, rfl⟩
  have names : s.q.filenameTrans = r.p₃.filenameTrans ∧ s.q.filenameTransTtypes = r.p₃.filenameTransTtypes ∧
      s.q.compatFilenameTransCount = r.p₃.compatFilenameTransCount := by
    rw [made, frame]
    exact ⟨rfl, rfl, rfl⟩
  obtain ⟨old, new⟩ := filenameTransRead_kept r.names
  have process : s.q.processClass = stringToSecurityClass r.p₁ processName := by rw [made, frame]
  have rules := r.rules
  have reader : avtabRead { r.p₁ with processClass := stringToSecurityClass r.p₁ processName } = avtabRead s.policy := by
    unfold PolicySteps.policy
    rw [made, frame]
    rfl
  have table : s.q.teAvtab = r.teAvtab := by rw [made, frame]
  rw [reader, ← table] at rules
  refine ⟨⟨?_, ?_, ?_, ?_, ?_⟩, len.trans fresh.1, ?_, shape.processClass, shape.transPerms, s.checked, ⟨_, _, rules⟩,
    ⟨_, _, s.typeAttrs⟩, fun older => ?_, fun newer => ?_⟩
  · exact vers ▸ stored.least
  · exact vers ▸ stored.most
  · exact vers ▸ mls ▸ stored.mls
  · change ¬ policydbVersionPolcap ≤ s.q.policyvers → s.q.policycaps = _
    rw [vers, policycaps]
    exact stored.policycaps
  · change ¬ policydbVersionPermissive ≤ s.q.policyvers → s.q.permissiveMap = _
    rw [vers, permissive]
    exact stored.permissive
  · change s.q.processClass ≠ 0
    rw [process]
    exact r.known
  · have same := old (by rw [vers₂, ← vers]; exact older)
    refine ⟨names.1.trans ?_, names.2.1.trans ?_, names.2.2.trans ?_⟩
    · rw [same]
      exact names₂.trans fresh.2.1
    · rw [same]
      exact ttypes₂.trans fresh.2.2.1
    · rw [same]
      exact count₂.trans fresh.2.2.2
  · exact names.2.2.trans ((new (by rw [vers₂, ← vers]; exact newer)).trans (count₂.trans fresh.2.2.2))

theorem FileFacts.switched (facts : FileFacts p) (same : SameRules p p') : FileFacts p' := by
  unfold SameRules at same
  rw [same]
  exact ⟨⟨facts.header.least, facts.header.most, facts.header.mls, facts.header.policycaps, facts.header.permissive⟩,
    facts.len, facts.known, facts.process, facts.transPerms, facts.checked, facts.rules, facts.attrs, facts.oldNames,
    facts.newNames⟩

theorem inForce_facts (inForce : InForce p) : FileFacts p := by
  induction inForce with
  | loaded read => exact policydbRead_facts read
  | reloaded _ read kept _ =>
    exact (policydbRead_facts read).switched (securityPreserveBools_ok (policydbRead_shape read).teCondAvtab kept).1
  | switched _ set facts => exact facts.switched (securitySetBools_ok set).1

end Facts

section File

open ContextFiles FilenameFiles RuleFiles
  SymtabFiles TransitionFiles

/-- Names that are not empty, bitmaps without empty nodes, and rules that can come to their chains in the order in
which they are written; file name transitions in the newest format, or none. -/
structure PolicyOrdinary (p : Policydb) : Prop where
  newer : policydbVersionAvtab ≤ p.policyvers
  policycaps : BitmapStored p.policycaps
  permissive : BitmapStored p.permissiveMap
  tables : TablesOrdinary p
  rules : Orderly (p.teAvtab.nodes.map rule)
  names : p.policyvers < policydbVersionFilenameTrans ∨ policydbVersionCompFtrans ≤ p.policyvers ∧
    ChainsNear p.filenameTrans ∧ ∀ e ∈ p.filenameTrans.entries, RecordOrdinary e
  ocontexts : ∀ i, ∀ c ∈ p.ocontexts.getD i [], OcontextOrdinary c
  genfs : ∀ g ∈ p.genfs, GenfsOrdinary g
  ranges : ∀ e ∈ p.rangeTr.entries, RangeStored e.2
  attrs : ∀ e ∈ p.typeAttrMapArray, BitmapStored e

theorem PolicyOrdinary.mls (ordinary : PolicyOrdinary p) : policydbVersionMls ≤ p.policyvers :=
  BitVec.le_trans (by decide) ordinary.newer

/-- The policy when the object contexts are read. -/
def frontOf (p : Policydb) (again : Avtab) : Policydb :=
  { p with
    teAvtab := again, ocontexts := policydbInit.ocontexts, genfs := [], rangeTr := hashtabZero
    typeAttrMapArray := [], len := 0 }

/-- The file name transitions, in the newest format or in none. -/
theorem names_carried (inForce : InForce p) (ordinary : PolicyOrdinary p) {q : Policydb}
    (vers : q.policyvers = p.policyvers) (fresh : q.filenameTransTtypes = ebitmapInit) (table : q.filenameTrans = hashtabZero)
    (none : q.compatFilenameTransCount = 0) :
    Carries einval (filenameTransWrite p) (filenameTransRead q)
      { q with
        compatFilenameTransCount := p.compatFilenameTransCount, filenameTrans := p.filenameTrans
        filenameTransTtypes := p.filenameTransTtypes } := by
  have facts := inForce_facts inForce
  rcases ordinary.names with old | ⟨new, near, records⟩
  · obtain ⟨names, ttypes, count⟩ := facts.oldNames old
    unfold filenameTransWrite filenameTransRead
    rw [if_pos old, if_pos (vers ▸ old), names, ttypes, count, ← fresh, ← table, ← none]
    exact .pure q
  · obtain ⟨q₀, _, _, read, -⟩ := inForce_names inForce
    have carried := names_carry new near records read vers fresh
    rw [facts.newNames new, ← none]
    exact carried

/-- The policy when the conditional rules have been read. -/
def condsOf (p : Policydb) (again : Avtab) : Policydb :=
  { withTables (headerOf p) p with
    processClass := p.processClass, teAvtab := again, teCondAvtab := p.teCondAvtab, condList := p.condList }

theorem front_carries (inForce : InForce p) (ordinary : PolicyOrdinary p)
    (compat : policydbLookupCompat p.policyvers = some info) :
    ∃ again, SameRuleTables p.teAvtab again ∧ AvtabOk again ∧
      (again.nodes.map rule).Perm (p.teAvtab.nodes.map rule) ∧
      Carries einval (ByteWriter.seq [policydbWriteHeader p info, symtabsWrite info.symNum p, avtabWrite p.teAvtab,
        condWriteList p, roleTransWrite p, roleAllowWrite p.roleAllow, filenameTransWrite p])
        policydbReadRules (frontOf p again, info) := by
  have facts := inForce_facts inForce
  have mls := ordinary.mls
  have few := inForce_few inForce
  obtain ⟨_, _, read⟩ := facts.rules
  obtain ⟨ok, file, emitsRules, readBack, -, same⟩ := avtab_file ordinary.newer read
  obtain ⟨again, takesRules⟩ := readBack.mpr ordinary.rules
  obtain ⟨nel, okAgain, rules⟩ := same again takesRules
  have tables : SameRuleTables p.teAvtab again := ⟨nel, matches_perm ok okAgain rules⟩
  refine ⟨again, tables, okAgain, rules, ?_⟩
  have header := header_carries facts.header compat (fun _ => ordinary.policycaps) fun _ => ordinary.permissive
  have symbols := symtabs_carry (p := p) (q := headerOf p) rfl mls (inForce_tables inForce mls) ordinary.tables
    (BooleanStates.inForce_bools inForce).states
  have process : stringToSecurityClass (withTables (headerOf p) p) processName = p.processClass := facts.process.symm
  rw [compat_tables mls compat]
  unfold policydbReadRules
  refine header.cons ?_
  dsimp only
  rw [compat_tables mls compat]
  refine symbols.cons ?_
  rw [process]
  refine .require facts.known ?_
  have again_carries : Carries einval (avtabWrite p.teAvtab)
      (avtabRead { withTables (headerOf p) p with processClass := p.processClass }) again :=
    ⟨file, emitsRules, takesRules⟩
  refine again_carries.cons ?_
  obtain ⟨conds, from_conds⟩ := CondSwitches.inForce_conds inForce ordinary.newer
  have conditional : policydbVersionBool ≤ (withTables (headerOf p) p).policyvers :=
    BitVec.le_trans (by decide) ordinary.newer
  have conds_carried : Carries einval (condWriteList p)
      (condReadList { withTables (headerOf p) p with processClass := p.processClass, teAvtab := again })
      (condsOf p again) :=
    CondFiles.conds_carry (p := condsOf p again) ordinary.newer
      (condsFrom_tables from_conds ⟨rfl, rfl, rfl, rfl⟩ tables rfl rfl)
  rw [if_pos conditional]
  refine conds_carried.cons ?_
  obtain ⟨⟨_, _, roles⟩, ⟨_, _, allows⟩, -⟩ := inForce_transitions inForce
  have roles_carried : Carries einval (roleTransWrite p) (roleTransRead (condsOf p again)) p.roleTr :=
    roleTrans_carries few roles
  have allows_carried : Carries einval (roleAllowWrite p.roleAllow) (roleAllowRead (condsOf p again)) p.roleAllow :=
    roleAllow_carries allows
  refine roles_carried.cons (allows_carried.cons ?_)
  have names := names_carried inForce ordinary
    (q := { condsOf p again with roleTr := p.roleTr, roleAllow := p.roleAllow }) rfl rfl rfl rfl
  obtain ⟨text, emits, takes⟩ := names.last
  refine ⟨text, emits, fun rest => ByteReader.bind_ok.mpr ⟨_, rest, takes rest, ?_⟩⟩
  have index := policydbIndex_tables (inForce_indexed inForce)
    (q := { condsOf p again with
      roleTr := p.roleTr, roleAllow := p.roleAllow, compatFilenameTransCount := p.compatFilenameTransCount
      filenameTrans := p.filenameTrans, filenameTransTtypes := p.filenameTransTtypes })
    ⟨rfl, rfl, rfl, rfl, rfl, .refl _, rfl, rfl⟩
  refine ByteReader.bind_ok.mpr ⟨_, rest, ByteReader.lift_ok.mpr ⟨index, rfl⟩, ?_⟩
  exact ByteReader.bind_ok.mpr ⟨_, rest, ByteReader.lift_ok.mpr ⟨facts.transPerms, rfl⟩,
    ByteReader.pure_ok.mpr ⟨rfl, rfl⟩⟩

theorem inForce_compat (inForce : InForce p) : ∃ info, policydbLookupCompat p.policyvers = some info := by
  obtain ⟨bytes, rest, s, rules⟩ := inForce_steps inForce
  refine ⟨s.info, ?_⟩
  have vers : p.policyvers = s.q.policyvers := by
    rw [rules]
    rfl
  rw [vers]
  exact policydbReadRules_compat s.rules

theorem policydbWrite_new (newer : policydbVersionAvtab ≤ p.policyvers)
    (compat : policydbLookupCompat p.policyvers = some info) :
    policydbWrite p = ByteWriter.seq (ByteWriter.seq [policydbWriteHeader p info, symtabsWrite info.symNum p,
        avtabWrite p.teAvtab, condWriteList p, roleTransWrite p, roleAllowWrite p.roleAllow, filenameTransWrite p] ::
      [ocontextWrite p info, genfsWrite p, rangeWrite p,
        ByteWriter.each (typeAttrMapWrite p) (List.range p.pTypes.nprim.toNat)]) := by
  unfold policydbWrite
  rw [if_neg (BitVec.not_lt.mpr newer), compat, seq_seq]
  rfl

/-- A policy in force is carried to one with the rules of its chains in another order. -/
theorem policy_carries (inForce : InForce p) (ordinary : PolicyOrdinary p) :
    ∃ again, SameRuleTables p.teAvtab again ∧ AvtabOk again ∧
      (again.nodes.map rule).Perm (p.teAvtab.nodes.map rule) ∧
      Carries einval (policydbWrite p) policydbRead { p with teAvtab := again } := by
  have facts := inForce_facts inForce
  have mls := ordinary.mls
  obtain ⟨info, compat⟩ := inForce_compat inForce
  obtain ⟨again, tables, ok, rules, front⟩ := front_carries inForce ordinary compat
  refine ⟨again, tables, ok, rules, ?_⟩
  rw [policydbWrite_new ordinary.newer compat]
  unfold policydbRead
  refine front.cons ?_
  obtain ⟨lists, beyond⟩ := inForce_ocontexts inForce compat
  have fits := compat_fits compat
  have ocontexts : Carries einval (ocontextWrite p info) (ocontextRead (frontOf p again) info) p.ocontexts := by
    refine ocontexts_carry (p := frontOf p again) mls (by omega) (fun j _ upper => ?_) ordinary.ocontexts
      fun j outside => ?_
    · obtain ⟨entries, counted⟩ := lists j (by omega)
      exact ⟨entries, counted⟩
    · rw [beyond j (by omega)]
      change (Vector.replicate 9 ([] : List Ocontext)).getD j [] = []
      rw [EbitmapBits.vector_getD, Vector.getElem?_replicate]
      split
      · rfl
      · rfl
  have genfs : Carries einval (genfsWrite p) (genfsRead (frontOf p again)) p.genfs :=
    genfs_carry inForce mls ordinary.genfs
  have ranges : Carries einval (rangeWrite p) (rangeRead (frontOf p again)) p.rangeTr := by
    obtain ⟨-, -, read⟩ := inForce_transitions inForce
    obtain ⟨_, _, read⟩ := read mls
    have carried := rangeTrans_carries (inForce_few inForce) mls ordinary.ranges read
    rw [rangeRead_new mls] at carried
    rw [rangeRead_new (p := frontOf p again) mls]
    exact carried
  have attrs : Carries einval (ByteWriter.each (typeAttrMapWrite p) (List.range p.pTypes.nprim.toNat))
      (typeAttrMapsRead p.policyvers p.pTypes.nprim.toNat 0) p.typeAttrMapArray := by
    obtain ⟨_, _, read⟩ := facts.attrs
    obtain ⟨length, own⟩ := typeAttrMaps_own (by have := p.pTypes.nprim.isLt; omega) read
    rw [List.range_eq_range']
    exact typeAttrMaps_carry ordinary.newer (fun k _ => by rw [Nat.zero_add]) length ordinary.attrs own
  refine ocontexts.cons (genfs.cons (ranges.cons ?_))
  obtain ⟨text, emits, takes⟩ := attrs.last
  refine ⟨text, emits, fun rest => ByteReader.bind_ok.mpr ⟨p.typeAttrMapArray, rest, takes rest, ?_⟩⟩
  refine ByteReader.bind_ok.mpr ⟨(), rest, ByteReader.lift_ok.mpr ⟨facts.checked, rfl⟩, ?_⟩
  exact ByteReader.pure_ok.mpr ⟨congrArg (fun len => ({ p with teAvtab := again, len } : Policydb)) facts.len.symm, rfl⟩

end File

end Ksrc.Guarantees.PolicyFiles

import Ksrc.Guarantees.GenfsLabels
import Ksrc.Guarantees.PoliciesInForce
import Ksrc.Guarantees.PolicyCodecs
import Ksrc.Guarantees.PolicyImages

/-!
# Labelled objects that are written and read again

Source: `security/selinux/ss/policydb.c` (`ocontext_write`, `ocontext_read`, `genfs_write`,
`genfs_read`, `context_write`, `context_read_and_validate`).

A name whose first byte in the file was 0 is empty in memory, and `str_read` takes no empty name. A
bitmap that had an empty node is written without it. Without these the lists are read back as they
are: the order that `genfs_read` makes is the order of the lists.
-/
namespace Ksrc.Guarantees.ContextFiles

open Library Source GenfsLabels PolicyCodecs
open PolicyImages PolicydbShape

variable {p : Policydb} {bytes rest : List U8} {c : Ocontext} {context : Context} {i : Nat}

/-- Names that are not empty, and bitmaps without empty nodes. -/
structure OcontextOrdinary (c : Ocontext) : Prop where
  name : ∀ name, c.u = .name name → name ≠ []
  devName : ∀ devName port, c.u = .ibendport devName port → devName ≠ []
  range0 : RangeStored c.context0.range
  range1 : RangeStored c.context1.range

section Entries

theorem contextRead_stored (read : contextReadAndValidate p bytes = .ok (context, rest))
    (range : RangeStored context.range) : ContextStored p context := by
  simp only [contextReadAndValidate, ByteReader.bind_ok, ByteReader.pure_ok, ByteReader.require_ok,
    ByteReader.lift_ok] at read
  obtain ⟨user, _, -, role, _, -, type, _, -, r, _, -, valid, _, ⟨checked, -⟩, _, _, ⟨holds, -⟩, rfl, -⟩ := read
  exact ⟨rfl, by rw [checked, holds], range⟩

theorem addr6_carries (addr : Vector U32 4) : Carries einval (putAddr6 addr) nextAddr6 addr := by
  obtain ⟨⟨words⟩, length⟩ := addr
  obtain ⟨a0, a1, a2, a3, rfl⟩ : ∃ a0 a1 a2 a3, words = [a0, a1, a2, a3] := by
    change words.length = 4 at length
    rcases words with _ | ⟨a0, _ | ⟨a1, _ | ⟨a2, _ | ⟨a3, _ | ⟨a4, more⟩⟩⟩⟩⟩
    all_goals simp at length
    exact ⟨a0, a1, a2, a3, rfl⟩
  have made : Carries einval ByteWriter.skip (pure #v[a0, a1, a2, a3] : PolicyReader (Vector U32 4))
      #v[a0, a1, a2, a3] := .pure _
  exact (u32_carries a0).andThen ((u32_carries a1).andThen ((u32_carries a2).andThen
    ((u32_carries a3).andThen made)))

theorem zeroExtend_short (x : U16) : x.zeroExtend 32 ≤ (0xffff : U32) := by
  have bound : (0xffff : U32).toNat = 65535 := rfl
  have := x.isLt
  rw [BitVec.le_def, bound]
  simp only [BitVec.truncate_eq_setWidth, BitVec.toNat_setWidth]
  omega

theorem zeroExtend_truncate_port {port : U32} (small : port ≤ 0xff) :
    (port.truncate 8).zeroExtend 32 = port := by
  have bound : (0xff : U32).toNat = 255 := rfl
  rw [BitVec.le_def, bound] at small
  apply BitVec.eq_of_toNat_eq
  simp only [BitVec.truncate_eq_setWidth, BitVec.toNat_setWidth]
  have := port.isLt
  have byte : port.toNat % 2 ^ 8 = port.toNat := Nat.mod_eq_of_lt (by omega)
  rw [byte, Nat.mod_eq_of_lt this]

/-- One context behind what a kind of object has. -/
theorem context_made {c : Context} {f : Context → Ocontext} (mls : policydbVersionMls ≤ p.policyvers)
    (stored : ContextStored p c) :
    Carries einval (ByteWriter.seq [contextWrite c]) (contextReadAndValidate p >>= fun c => pure (f c)) (f c) :=
  ((context_carries mls stored).map (g := f)).last

/-- An entry that was read is carried to itself. -/
theorem ocontext_carries (mls : policydbVersionMls ≤ p.policyvers) (inside : i < oconNum)
    (read : ocontextReadOne p i bytes = .ok (c, rest)) (ordinary : OcontextOrdinary c) :
    Carries einval (ocontextWriteOne i c) (ocontextReadOne p i) c := by
  have := inside
  unfold ocontextReadOne at read
  split at read
  · rename_i kind
    subst kind
    simp only [ByteReader.bind_ok, ByteReader.pure_ok] at read
    obtain ⟨sid0, _, -, context, _, readContext, rfl, -⟩ := read
    exact (u32_carries sid0).cons (context_made mls (contextRead_stored readContext ordinary.range0))
  split at read
  · rename_i kind
    simp only [ByteReader.bind_ok, ByteReader.pure_ok] at read
    obtain ⟨len, _, -, name, _, readName, context0, _, read0, context1, _, read1, rfl, -⟩ := read
    have stored := strRead_stored readName (ordinary.name name rfl)
    have both : Carries einval
        (ByteWriter.seq [putCount name.length, putStr name, contextWrite context0, contextWrite context1])
        (nextU32 >>= fun len => strRead len >>= fun name => contextReadAndValidate p >>= fun context0 =>
          contextReadAndValidate p >>= fun context1 =>
            pure { ocontextOf (.name name) 0 context0 with context1 })
        { ocontextOf (.name name) 0 context0 with context1 } := by
      refine (u32_carries (BitVec.ofNat 32 name.length)).cons ?_
      refine (name_carries stored).cons ?_
      refine (context_carries mls (contextRead_stored read0 ordinary.range0)).cons ?_
      exact context_made mls (contextRead_stored read1 ordinary.range1)
    rcases kind with rfl | rfl
    · exact both
    · exact both
  split at read
  · rename_i kind
    subst kind
    simp only [ByteReader.bind_ok, ByteReader.pure_ok] at read
    obtain ⟨protocol, _, -, low, _, -, high, _, -, context, _, readContext, rfl, -⟩ := read
    have made := context_made (f := ocontextOf (.port (protocol.truncate 8) (low.truncate 16) (high.truncate 16)) 0)
      mls (contextRead_stored readContext ordinary.range0)
    refine (u32_carries _).cons ((u32_carries _).cons ((u32_carries _).cons ?_))
    simp only [truncate_zeroExtend (show 8 ≤ 32 by decide), truncate_zeroExtend (show 16 ≤ 32 by decide)]
    exact made
  split at read
  · rename_i kind
    subst kind
    simp only [ByteReader.bind_ok, ByteReader.pure_ok] at read
    obtain ⟨addr, _, -, mask, _, -, context, _, readContext, rfl, -⟩ := read
    exact (u32_carries addr).cons ((u32_carries mask).cons
      (context_made mls (contextRead_stored readContext ordinary.range0)))
  split at read
  · rename_i kind
    subst kind
    simp only [ByteReader.bind_ok, ByteReader.pure_ok, ByteReader.require_ok] at read
    obtain ⟨behavior, _, -, len, _, -, _, _, ⟨runtime, -⟩, _, _, ⟨most, -⟩, name, _, readName, context, _,
      readContext, rfl, -⟩ := read
    have stored := strRead_stored readName (ordinary.name name rfl)
    refine (u32_carries behavior).cons ((u32_carries (BitVec.ofNat 32 name.length)).cons
      (.require runtime (.require most ?_)))
    refine (name_carries stored).cons ?_
    exact context_made mls (contextRead_stored readContext ordinary.range0)
  split at read
  · rename_i kind
    subst kind
    simp only [ByteReader.bind_ok, ByteReader.pure_ok] at read
    obtain ⟨addr, _, -, mask, _, -, context, _, readContext, rfl, -⟩ := read
    exact (addr6_carries addr).cons ((addr6_carries mask).cons
      (context_made mls (contextRead_stored readContext ordinary.range0)))
  split at read
  · rename_i kind
    subst kind
    simp only [ByteReader.bind_ok, ByteReader.pure_ok, ByteReader.require_ok] at read
    obtain ⟨subnetPrefix, _, -, low, _, -, high, _, -, _, _, ⟨⟨lowShort, highShort⟩, -⟩, context, _, readContext,
      rfl, -⟩ := read
    have made := context_made (f := ocontextOf (.ibpkey subnetPrefix (low.truncate 16) (high.truncate 16)) 0)
      mls (contextRead_stored readContext ordinary.range0)
    refine (be64_carries _).cons ((u32_carries _).cons ((u32_carries _).cons
      (.require ⟨zeroExtend_short _, zeroExtend_short _⟩ ?_)))
    simp only [truncate_zeroExtend (show 16 ≤ 32 by decide)]
    exact made
  · rename_i notIsid notName notPort notNode notFsuse notNode6 notIbpkey
    have kind : i = oconIbendport := by
      unfold oconNum at inside
      unfold oconIsid at notIsid
      unfold oconFs oconNetif at notName
      unfold oconPort at notPort
      unfold oconNode at notNode
      unfold oconFsuse at notFsuse
      unfold oconNode6 at notNode6
      unfold oconIbpkey at notIbpkey
      unfold oconIbendport
      omega
    subst kind
    simp only [ByteReader.bind_ok, ByteReader.pure_ok, ByteReader.require_ok] at read
    obtain ⟨len, _, -, port, _, -, devName, _, readName, _, _, ⟨⟨small, some⟩, -⟩, context, _, readContext, rfl,
      -⟩ := read
    have stored := strRead_stored readName (ordinary.devName devName (port.truncate 8) rfl)
    have kept := zeroExtend_truncate_port small
    have made := context_made (f := ocontextOf (.ibendport devName (port.truncate 8)) 0) mls
      (contextRead_stored readContext ordinary.range0)
    refine (u32_carries (BitVec.ofNat 32 devName.length)).cons ((u32_carries _).cons ((name_carries stored).cons ?_))
    rw [kept]
    exact .require ⟨small, some⟩ made

end Entries

section Lists

open PoliciesInForce

variable {info : PolicydbCompatInfo} {left : Nat} {start made : Vector (List Ocontext) 9}

/-- A list as `ocontext_read` makes one. -/
structure ListRead (p : Policydb) (i : Nat) (list : List Ocontext) : Prop where
  entries : ∀ c ∈ list, ∃ bytes rest, ocontextReadOne p i bytes = .ok (c, rest)
  counted : list.length < 2 ^ 32

/-- The kinds that are read get such lists; those that are not keep theirs. -/
theorem ocontextReadFrom_lists (fits : i + left ≤ oconNum)
    (read : ocontextReadFrom p left i start bytes = .ok (made, rest)) :
    (∀ j, i ≤ j → j < i + left → ListRead p j (made.getD j [])) ∧
      ∀ j, j < i ∨ i + left ≤ j → made.getD j [] = start.getD j [] := by
  induction left generalizing i start bytes with
  | zero =>
    obtain ⟨rfl, -⟩ := ByteReader.pure_ok.mp read
    exact ⟨fun j lower upper => absurd upper (by omega), fun _ _ => rfl⟩
  | succ left ih =>
    simp only [ocontextReadFrom, ByteReader.bind_ok] at read
    obtain ⟨nel, _, -, list, _, entries, later⟩ := read
    obtain ⟨lists, kept⟩ := ih (by omega) later
    have here : made.getD i [] = list := by
      have inside : i < 9 := by
        unfold oconNum at fits
        omega
      rw [kept i (.inl (Nat.lt_succ_self i)), EbitmapBits.vector_getD, Vector.getElem?_setIfInBounds_self_of_lt inside]
      rfl
    constructor
    · intro j lower upper
      by_cases first : j = i
      · subst first
        rw [here]
        constructor
        · exact ByteReader.several_all (fun s a rest once => ⟨s, rest, once⟩) entries
        · rw [ByteReader.several_length entries]
          exact nel.isLt
      · exact lists j (by omega) (by omega)
    · intro j outside
      have other : i ≠ j := by omega
      rw [kept j (by omega), EbitmapBits.vector_getD, Vector.getElem?_setIfInBounds_ne other,
        ← EbitmapBits.vector_getD]

/-- Lists that are as they are read are carried to themselves, from lists that are the same elsewhere. -/
theorem ocontexts_carry {start : Vector (List Ocontext) 9} (mls : policydbVersionMls ≤ p.policyvers)
    (fits : i + left ≤ oconNum) (lists : ∀ j, i ≤ j → j < i + left → ListRead p j (made.getD j []))
    (ordinary : ∀ j, ∀ c ∈ made.getD j [], OcontextOrdinary c)
    (elsewhere : ∀ j, j < i ∨ i + left ≤ j → start.getD j [] = made.getD j []) :
    Carries einval (ocontextWriteFrom made left i) (ocontextReadFrom p left i start) made := by
  induction left generalizing i start with
  | zero =>
    have same : start = made := by
      apply Vector.ext
      intro j inside
      have here := elsewhere j (by omega)
      rwa [EbitmapBits.vector_getD, EbitmapBits.vector_getD, Vector.getElem?_eq_getElem inside,
        Vector.getElem?_eq_getElem inside] at here
    rw [same]
    exact .pure _
  | succ left ih =>
    have list := lists i (Nat.le_refl i) (by omega)
    have more := @ih (i + 1) (start.setIfInBounds i (made.getD i [])) (by omega)
      (fun j lower upper => lists j (by omega) (by omega)) fun j outside => by
        by_cases here : i = j
        · subst here
          rw [EbitmapBits.vector_getD, Vector.getElem?_setIfInBounds_self_of_lt (by unfold oconNum at fits; omega)]
          rfl
        · rw [EbitmapBits.vector_getD, Vector.getElem?_setIfInBounds_ne here, ← EbitmapBits.vector_getD]
          exact elsewhere j (by omega)
    have count : (BitVec.ofNat 32 (made.getD i []).length).toNat = (made.getD i []).length :=
      Nat.mod_eq_of_lt list.counted
    have entries : Carries einval (ByteWriter.each (ocontextWriteOne i) (made.getD i []))
        (ByteReader.several (ocontextReadOne p i) (made.getD i []).length) (made.getD i []) := by
      refine .row fun c member => ?_
      obtain ⟨_, _, once⟩ := list.entries c member
      exact ocontext_carries mls (by omega) once (ordinary i c member)
    unfold ocontextWriteFrom ocontextReadFrom
    refine (u32_carries _).cons ?_
    rw [count]
    exact entries.cons more.last

/-- A policy in force was read, and differs in its booleans and conditional rules only. -/
theorem inForce_steps (inForce : InForce p) :
    ∃ bytes rest, ∃ s : PolicySteps bytes rest, SameRules s.policy p := by
  induction inForce with
  | loaded read =>
    obtain ⟨s, rfl⟩ := policydbRead_steps read
    exact ⟨_, _, s, rfl⟩
  | reloaded _ read kept _ =>
    have shape := policydbRead_shape read
    obtain ⟨s, rfl⟩ := policydbRead_steps read
    exact ⟨_, _, s, (securityPreserveBools_ok shape.teCondAvtab kept).1⟩
  | switched _ set stepped =>
    obtain ⟨bytes, rest, s, same⟩ := stepped
    exact ⟨bytes, rest, s, same.trans (securitySetBools_ok set).1⟩

/-- The header has the sizes of the tables from its version. -/
theorem policydbReadHeader_compat (read : policydbReadHeader bytes = .ok ((p, info), rest)) :
    policydbLookupCompat p.policyvers = some info := by
  simp only [policydbReadHeader, ByteReader.bind_ok] at read
  obtain ⟨_, _, -, policyvers, _, -, _, _, -, _, _, -, _, _, -, _, _, -, _, _, -, _, _, -, _, _, -, read⟩ := read
  cases found : policydbLookupCompat policyvers with
  | none => simp only [found, ByteReader.fail_ok] at read
  | some compat =>
    simp only [found, ByteReader.bind_ok, ByteReader.pure_ok] at read
    obtain ⟨_, _, -, made, -⟩ := read
    cases made
    exact found

theorem policydbReadRules_compat (read : policydbReadRules bytes = .ok ((p, info), rest)) :
    policydbLookupCompat p.policyvers = some info := by
  obtain ⟨s, rfl⟩ := policydbReadRules_steps read
  have tables := (symtabsRead_ok s.symtabs).1
  have vers : s.policy.policyvers = s.p₀.policyvers := by
    rw [s.frame, s.condsRead.2, tables]
  rw [vers]
  exact policydbReadHeader_compat s.header

theorem compat_fits (compat : policydbLookupCompat p.policyvers = some info) : info.oconNum ≤ oconNum := by
  unfold policydbLookupCompat at compat
  have all : policydbCompat.all fun info => decide (info.oconNum ≤ oconNum) := by decide
  exact of_decide_eq_true (List.all_eq_true.mp all info (List.mem_of_find?_eq_some compat))

/-- An entry without the SIDs that lookups left in it; an initial SID has its number there. -/
def withoutCached (i : Nat) (c : Ocontext) : Ocontext :=
  { c with sid0 := if i = oconIsid then c.sid0 else 0, sid1 := 0 }

theorem ocontextWriteOne_cached (c : Ocontext) :
    ocontextWriteOne i (withoutCached i c) = ocontextWriteOne i c := by
  unfold ocontextWriteOne withoutCached
  by_cases isid : i = oconIsid
  · simp only [if_pos isid]
  · simp only [if_neg isid]

/-- The SIDs that lookups left are not written. -/
theorem ocontextWriteFrom_cached {labelled : Vector (List Ocontext) 9}
    (same : ∀ i, (labelled.getD i []).map (withoutCached i) = (made.getD i []).map (withoutCached i)) :
    ocontextWriteFrom labelled left i = ocontextWriteFrom made left i := by
  have entries (v : Vector (List Ocontext) 9) (i : Nat) :
      ByteWriter.each (ocontextWriteOne i) (v.getD i []) =
        ByteWriter.each (ocontextWriteOne i) ((v.getD i []).map (withoutCached i)) := by
    rw [each_map]
    exact congrArg (fun w => ByteWriter.each w _) (funext fun c => (ocontextWriteOne_cached c).symm)
  induction left generalizing i with
  | zero => rfl
  | succ left ih =>
    have length : (labelled.getD i []).length = (made.getD i []).length := by
      have := congrArg List.length (same i)
      rwa [List.length_map, List.length_map] at this
    unfold ocontextWriteFrom
    rw [ih, length, entries labelled, entries made, same]

/-- The object contexts of a policy in force were read, and there are none of other kinds. -/
theorem inForce_ocontexts (inForce : InForce p) (compat : policydbLookupCompat p.policyvers = some info) :
    (∀ j, j < info.oconNum → ListRead p j (p.ocontexts.getD j [])) ∧
      ∀ j, info.oconNum ≤ j → p.ocontexts.getD j [] = [] := by
  obtain ⟨bytes, rest, s, rules⟩ := inForce_steps inForce
  have found := policydbReadRules_compat s.rules
  obtain ⟨r, made⟩ := policydbReadRules_steps s.rules
  have fresh : s.q.ocontexts = policydbInit.ocontexts := by
    have frame := r.frame
    rw [← made, r.condsRead.2] at frame
    rw [frame]
    change r.p₁.ocontexts = _
    rw [(symtabsRead_ok r.symtabs).1, policydbReadHeader_made r.header]
  have vers : p.policyvers = s.q.policyvers := by
    rw [rules]
    rfl
  have tables : p.ocontexts = s.ocontextArray := by
    rw [rules]
    rfl
  have one (i : Nat) : ocontextReadOne s.q i = ocontextReadOne p i := by
    rw [rules]
    rfl
  have sizes : s.info = info := by
    rw [vers, found] at compat
    exact Option.some.inj compat
  have fits := compat_fits compat
  obtain ⟨lists, kept⟩ := ocontextReadFrom_lists (by rw [sizes]; omega) s.ocontexts
  rw [sizes] at lists kept
  rw [tables]
  constructor
  · intro j inside
    obtain ⟨entries, counted⟩ := lists j (Nat.zero_le j) (by omega)
    refine ⟨fun c member => ?_, counted⟩
    rw [← one]
    exact entries c member
  · intro j beyond
    rw [kept j (.inr (by omega)), fresh, EbitmapBits.vector_getD]
    change ((Vector.replicate 9 [])[j]?).getD [] = _
    rw [Vector.getElem?_replicate]
    split
    · rfl
    · rfl

/-- No categories, and no name that is empty. -/
def plainEntry (c : Ocontext) : Bool :=
  c.u != .name [] && (match c.u with | .ibendport devName _ => devName != [] | _ => true) &&
    [c.context0.range, c.context1.range].all fun r => r.low.cat == ebitmapInit && r.high.cat == ebitmapInit

theorem empty_stored {l : MlsLevel} (empty : l.cat = ebitmapInit) : LevelStored l := by
  constructor
  · rw [empty]
    exact ⟨trivial, rfl⟩
  · rw [empty]
    rintro b ⟨n, member, -⟩
    cases member

theorem plainEntry_ordinary {c : Ocontext} (plain : plainEntry c = true) : OcontextOrdinary c := by
  simp only [plainEntry, Bool.and_eq_true, bne_iff_ne, List.all_cons, List.all_nil, Bool.and_true, beq_iff_eq] at plain
  obtain ⟨⟨named, device⟩, ⟨low0, high0⟩, low1, high1⟩ := plain
  refine ⟨?_, ?_, ⟨empty_stored low0, empty_stored high0⟩, ⟨empty_stored low1, empty_stored high1⟩⟩
  · rintro name here rfl
    exact named here
  · rintro devName port here rfl
    rw [here] at device
    simp at device

def plainContext : List U8 := word 1 ++ word 1 ++ word 1 ++ rangeBytes 1

/-- An initial SID, a network interface and a port, a device of InfiniBand. -/
def portImage : PolicyImage :=
  { smallImage with
    ocontexts := counted [word 1 ++ plainContext] ++ counted [] ++
      counted [word 6 ++ word 80 ++ word 81 ++ plainContext] ++
      counted [word 2 ++ cstr ['l', 'o'] ++ plainContext ++ plainContext] ++ counted [] ++ counted [] ++
      counted [] ++ counted [] ++ counted [word 1 ++ word 3 ++ cstr ['d'] ++ plainContext] }

def portLists (p : Policydb) : Bool :=
  p.policyvers == 33 && p.ocontexts.toList.map List.length == [1, 0, 1, 1, 0, 0, 0, 0, 1] &&
    p.ocontexts.toList.all fun list => list.all plainEntry

end Lists

section Filesystems

open PoliciesInForce

variable {head head' : List Ocontext} {genfs genfs' : List Genfs} {g : Genfs} {newc : Ocontext}

/-- An entry as `genfs_read` makes one. -/
def EntryRead (p : Policydb) (c : Ocontext) : Prop :=
  ∃ name v context, c = ocontextOf (.name name) v context ∧
    (∃ len bytes rest, strRead len bytes = .ok (name, rest)) ∧
    ∃ bytes rest, contextReadAndValidate p bytes = .ok (context, rest)

/-- A filesystem type as `genfs_read` makes one. -/
structure TypeRead (p : Policydb) (g : Genfs) : Prop where
  named : ∃ len bytes rest, strRead len bytes = .ok (g.fstype, rest)
  entries : ∀ c ∈ g.head, EntryRead p c
  counted : g.head.length < 2 ^ 32

/-- Names that are not empty, and bitmaps without empty nodes. -/
structure GenfsOrdinary (g : Genfs) : Prop where
  fstype : g.fstype ≠ []
  names : ∀ c ∈ g.head, c.uName ≠ []
  ranges : ∀ c ∈ g.head, RangeStored c.context0.range

theorem genfsReadEntry_inserted (read : genfsReadEntry p head bytes = .ok (head', rest)) :
    ∃ newc, EntryRead p newc ∧ genfsInsertEntry newc head = .ok head' := by
  simp only [genfsReadEntry, ByteReader.bind_ok, ByteReader.lift_ok] at read
  obtain ⟨len, _, -, name, _, named, v, _, -, context, _, validated, inserted, -⟩ := read
  exact ⟨_, ⟨name, v, context, rfl, ⟨_, _, _, named⟩, _, _, validated⟩, inserted⟩

theorem genfsReadOne_read (old : ∀ g ∈ genfs, TypeRead p g) (ok : TypesOk genfs)
    (read : genfsReadOne p genfs bytes = .ok (genfs', rest)) :
    (∀ g ∈ genfs', TypeRead p g) ∧ genfs'.length = genfs.length + 1 := by
  simp only [genfsReadOne, ByteReader.bind_ok, ByteReader.pure_ok, ByteReader.lift_ok] at read
  obtain ⟨len, _, -, fstype, _, named, ⟨before, behind⟩, _, ⟨placed, rfl⟩, nel2, _, -, head, _, loop, rfl,
    rfl⟩ := read
  obtain ⟨split, -, -⟩ := genfsPlace_split placed ok.ascending
  obtain ⟨entries, counted⟩ := times_counted (fun head : List Ocontext => ∀ c ∈ head, EntryRead p c) List.length
    (fun head bytes head' rest before once => by
      obtain ⟨newc, entry, inserted⟩ := genfsReadEntry_inserted once
      have perm := genfsInsertEntry_perm inserted
      refine ⟨fun c member => ?_, perm.length_eq⟩
      rcases List.mem_cons.mp (perm.mem_iff.mp member) with rfl | earlier
      · exact entry
      · exact before c earlier) (by simp) loop
  have small : head.length < 2 ^ 32 := by
    have := nel2.isLt
    rw [counted, List.length_nil]
    omega
  constructor
  · intro g member
    rcases List.mem_append.mp member with here | there
    · exact old g (by rw [split]; exact List.mem_append_left _ here)
    · rcases List.mem_cons.mp there with rfl | later
      · exact ⟨⟨_, _, _, named⟩, entries, small⟩
      · exact old g (by rw [split]; exact List.mem_append_right _ later)
  · rw [split, List.length_append, List.length_append, List.length_cons]
    rfl

theorem genfsRead_read (read : genfsRead p bytes = .ok (genfs, rest)) :
    (∀ g ∈ genfs, TypeRead p g) ∧ genfs.length < 2 ^ 32 := by
  simp only [genfsRead, ByteReader.bind_ok] at read
  obtain ⟨nel, _, -, loop⟩ := read
  have empty : TypesOk [] := ⟨List.Pairwise.nil, by simp⟩
  obtain ⟨⟨-, types⟩, counted⟩ := times_counted (fun genfs => TypesOk genfs ∧ ∀ g ∈ genfs, TypeRead p g) List.length
    (fun genfs bytes genfs' rest before once => by
      obtain ⟨types, added⟩ := genfsReadOne_read before.2 before.1 once
      exact ⟨⟨genfsReadOne_ok before.1 once, types⟩, added⟩) ⟨empty, by simp⟩ loop
  refine ⟨types, ?_⟩
  have := nel.isLt
  rw [counted, List.length_nil]
  omega

/-- An entry that is no longer than any is put at the end. -/
theorem genfsInsertEntry_end (longer : ∀ c ∈ head, newc.uName.length ≤ c.uName.length)
    (apart : ∀ c ∈ head, ¬ Clash c newc) : genfsInsertEntry newc head = .ok (head ++ [newc]) := by
  induction head with
  | nil => rfl
  | cons c head ih =>
    have first := longer c List.mem_cons_self
    have none : ¬ (newc.uName = c.uName ∧ (c.v = 0 ∨ newc.v = 0 ∨ newc.v = c.v)) := by
      rintro ⟨name, classes⟩
      refine apart c List.mem_cons_self ⟨name.symm, ?_⟩
      rcases classes with zero | zero | same
      · exact .inl zero
      · exact .inr (.inl zero)
      · exact .inr (.inr same.symm)
    unfold genfsInsertEntry
    rw [if_neg none, if_neg (by omega), ih (fun c member => longer c (List.mem_cons_of_mem _ member))
      fun c member => apart c (List.mem_cons_of_mem _ member)]
    rfl

/-- The last name has its place at the end. -/
theorem genfsPlace_end {fstype : Name}
    (less : ∀ g ∈ genfs, g.fstype.map BitVec.toNat < fstype.map BitVec.toNat) :
    genfsPlace fstype genfs = .ok (genfs, []) := by
  induction genfs with
  | nil => rfl
  | cons g genfs ih =>
    have greater := StringOrder.strcmp_pos.mpr (less g List.mem_cons_self)
    unfold genfsPlace
    rw [if_neg (by omega), if_neg (by omega), ih fun g member => less g (List.mem_cons_of_mem _ member)]

theorem genfsEntry_carries (mls : policydbVersionMls ≤ p.policyvers) {c : Ocontext} {front back : List Ocontext}
    (ok : EntriesOk (front ++ c :: back)) (entry : EntryRead p c) (named : c.uName ≠ [])
    (range : RangeStored c.context0.range) :
    Carries einval (genfsWriteEntry c) (genfsReadEntry p front) (front ++ [c]) := by
  obtain ⟨name, v, context, rfl, ⟨_, _, _, nameRead⟩, _, _, contextRead⟩ := entry
  have inserted : genfsInsertEntry (ocontextOf (.name name) v context) front =
      .ok (front ++ [ocontextOf (.name name) v context]) := by
    refine genfsInsertEntry_end (fun c member => ?_) fun c member => ?_
    · exact (List.pairwise_append.mp ok.longer).2.2 c member _ List.mem_cons_self
    · exact (List.pairwise_append.mp ok.apart).2.2 c member _ List.mem_cons_self
  refine (u32_carries (BitVec.ofNat 32 name.length)).cons ?_
  refine (name_carries (strRead_stored nameRead named)).cons ?_
  refine (u32_carries v).cons ?_
  refine (context_carries mls (contextRead_stored contextRead range)).cons ?_
  exact .lifted inserted

theorem genfsOne_carries (mls : policydbVersionMls ≤ p.policyvers) {front back : List Genfs}
    (ok : TypesOk (front ++ g :: back)) (typeRead : TypeRead p g) (ordinary : GenfsOrdinary g) :
    Carries einval (genfsWriteOne g) (genfsReadOne p front) (front ++ [g]) := by
  obtain ⟨_, _, _, nameRead⟩ := typeRead.named
  have placed : genfsPlace g.fstype front = .ok (front, []) :=
    genfsPlace_end fun other member => (List.pairwise_append.mp ok.ascending).2.2 other member g List.mem_cons_self
  have count : (BitVec.ofNat 32 g.head.length).toNat = g.head.length := Nat.mod_eq_of_lt typeRead.counted
  have entriesOk := ok.entries g (List.mem_append_right _ List.mem_cons_self)
  have entries : Carries einval (ByteWriter.each genfsWriteEntry g.head)
      (ByteReader.times (genfsReadEntry p) g.head.length []) ([] ++ g.head) := by
    refine .appends fun before c after split => ?_
    rw [List.nil_append] at split
    have member : c ∈ g.head := by
      rw [split]
      exact List.mem_append_right _ List.mem_cons_self
    rw [split] at entriesOk
    exact genfsEntry_carries mls entriesOk (typeRead.entries c member) (ordinary.names c member)
      (ordinary.ranges c member)
  refine (u32_carries (BitVec.ofNat 32 g.fstype.length)).cons ?_
  refine (name_carries (strRead_stored nameRead ordinary.fstype)).cons ?_
  refine .lift placed ?_
  refine (u32_carries (BitVec.ofNat 32 g.head.length)).cons ?_
  rw [count]
  exact (entries.map (g := fun head => front ++ [{ fstype := g.fstype, head }])).last

theorem genfsWriteOne_withoutSids (g : Genfs) : genfsWriteOne (withoutSids g) = genfsWriteOne g := by
  unfold genfsWriteOne withoutSids
  rw [each_map, List.length_map]
  rfl

/-- What is written of the filesystem types does not have the SIDs that lookups left. -/
theorem genfsWrite_cached {labelled : List Genfs} (same : labelled.map withoutSids = p.genfs.map withoutSids) :
    genfsWrite { p with genfs := labelled } = genfsWrite p := by
  have length : labelled.length = p.genfs.length := by
    have := congrArg List.length same
    rwa [List.length_map, List.length_map] at this
  have writes (genfs : List Genfs) :
      ByteWriter.each genfsWriteOne genfs = ByteWriter.each genfsWriteOne (genfs.map withoutSids) := by
    rw [each_map]
    exact congrArg (fun w => ByteWriter.each w _) (funext fun g => (genfsWriteOne_withoutSids g).symm)
  unfold genfsWrite
  simp only
  rw [length, writes, same, ← writes]

theorem genfs_carry (inForce : InForce p) (mls : policydbVersionMls ≤ p.policyvers)
    (ordinary : ∀ g ∈ p.genfs, GenfsOrdinary g) : Carries einval (genfsWrite p) (genfsRead p) p.genfs := by
  obtain ⟨bytes, rest, s, rules⟩ := inForce_steps inForce
  have list : p.genfs = s.genfsList := by
    rw [rules]
    rfl
  have reader : genfsRead s.q = genfsRead p := by
    rw [rules]
    rfl
  have read := s.genfs
  rw [reader, ← list] at read
  have ok := genfsRead_ok read
  obtain ⟨types, counted⟩ := genfsRead_read read
  unfold genfsWrite genfsRead
  refine (u32_carries (BitVec.ofNat 32 p.genfs.length)).cons ?_
  rw [show (BitVec.ofNat 32 p.genfs.length).toNat = p.genfs.length from Nat.mod_eq_of_lt counted]
  suffices all : Carries einval (ByteWriter.each genfsWriteOne p.genfs)
      (ByteReader.times (genfsReadOne p) p.genfs.length []) ([] ++ p.genfs) from all.last
  refine .appends fun front g back split => ?_
  rw [List.nil_append] at split
  have member : g ∈ p.genfs := by
    rw [split]
    exact List.mem_append_right _ List.mem_cons_self
  rw [split] at ok
  exact genfsOne_carries mls ok (types g member) (ordinary g member)

def genfsBytes (fstype : Name) (entries : List (Nat × Name)) : List U8 :=
  word fstype.length ++ fstype ++
    counted (entries.map fun entry => word entry.2.length ++ entry.2 ++ word entry.1 ++ plainContext)

/-- Types and entries in other orders than those of `genfs_read`. -/
def mountsImage : PolicyImage :=
  { smallImage with
    genfs := counted [genfsBytes (cstr ['s']) [(0, cstr ['/']), (1, cstr ['/', 'd'])],
      genfsBytes (cstr ['p']) [(0, cstr ['/'])]] }

def mountsSorted (p : Policydb) : Bool :=
  p.policyvers == 33 && p.genfs.map Genfs.fstype == [cstr ['p'], cstr ['s']] &&
    p.genfs.all fun g => g.fstype != [] && g.head.all fun c => c.uName != [] && plainEntry c

end Filesystems

end Ksrc.Guarantees.ContextFiles

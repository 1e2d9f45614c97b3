import Ksrc.Guarantees.FilenameKeys
import Ksrc.Guarantees.PolicydbShape
import Ksrc.Library.FirstOccurrences
import Ksrc.Source.ComputeSid

/-!
# File name transitions of the old format

Source: `security/selinux/ss/policydb.c` (`filename_trans_read_helper_compat`),
`security/selinux/ss/services.c` (`filename_compute_type`).

The rules of a key are regrouped by the type that they give, in the order in which a source type first
gives it. The walk over the groups stops at the one of the type of a new rule, so a later rule of a
source type goes before its first one where its type was introduced earlier.
-/
namespace Ksrc.Guarantees.FilenameRules

open Library Source EbitmapBits EbitmapFiles
  EbitmapSets EbitmapWalks OrderedChains
  PolicyImages PolicydbShape FilenameKeys

/-- A rule of the old format, as it is in the image. -/
structure FilenameRule where
  stype : U32
  ttype : U32
  tclass : U32
  name : Name
  otype : U32
  deriving DecidableEq, Repr

namespace FilenameRule

/-- The key that the rule is filed under, with the class cut to 16 bits. -/
def key (r : FilenameRule) : FilenameTransKey :=
  { ttype := r.ttype, tclass := r.tclass.truncate 16, name := r.name }

/-- The bit of the source type. -/
def bit (r : FilenameRule) : Nat := (r.stype - 1).toNat

/-- The rule is about a source type, a target type, a class and a name. -/
def isAbout (stype : U32) (k : FilenameTransKey) (r : FilenameRule) : Bool :=
  r.stype = stype && r.ttype = k.ttype && r.tclass = k.tclass.zeroExtend 32 && r.name = k.name

end FilenameRule

/-- The first rule in file order. -/
def firstRule (rules : List FilenameRule) (stype : U32) (k : FilenameTransKey) : Option FilenameRule :=
  rules.find? (FilenameRule.isAbout stype k)

/-- The rules filed under a key. -/
def rulesOf (rules : List FilenameRule) (k : FilenameTransKey) : List FilenameRule :=
  rules.filter fun r => r.key = k

/-- The types that the first rules of source types give, in file order. -/
def introduced (rules : List FilenameRule) : List U32 :=
  (firstsBy (fun a b => a.stype == b.stype) [] rules).map FilenameRule.otype

section Groups

variable {data : List FilenameTransDatum} {datum : FilenameTransDatum} {b : Nat} {otype : U32}

/-- What `filename_trans_read_helper_compat` makes of the data of a key. -/
def addRule (b : Nat) (otype : U32) (data : List FilenameTransDatum) : List FilenameTransDatum :=
  match filenametrWalk b otype data with
  | .duplicate => data
  | .datum index => data.modify index (·.addStype b)
  | .missing => data ++ [FilenameTransDatum.addStype { stypes := ebitmapInit, otype } b]

/-- The datum has the source type. -/
def holds (b : Nat) (datum : FilenameTransDatum) : Bool := ebitmapGetBit datum.stypes b

/-- The types that are given, in the order of the data. -/
def types (data : List FilenameTransDatum) : List U32 := data.map FilenameTransDatum.otype

theorem walk_duplicate (walk : filenametrWalk b otype data = .duplicate) :
    ∃ d, data.find? (holds b) = some d ∧ (types data).idxOf d.otype ≤ (types data).idxOf otype := by
  induction data with
  | nil => cases walk
  | cons first next ih =>
    unfold filenametrWalk at walk
    rw [List.find?_cons]
    split at walk
    · rename_i here
      refine ⟨first, ?_, ?_⟩
      · simp only [holds, here]
      · rw [types, List.map_cons, List.idxOf_cons_self]
        exact Nat.zero_le _
    rename_i notHere
    split at walk
    · cases walk
    rename_i otherType
    have later : filenametrWalk b otype next = .duplicate := by
      cases rest : filenametrWalk b otype next with
      | duplicate => rfl
      | datum index => simp [rest] at walk
      | missing => simp [rest] at walk
    obtain ⟨d, found, before⟩ := ih later
    refine ⟨d, ?_, ?_⟩
    · simp only [holds, notHere]
      exact found
    · simp only [types, List.map_cons] at before ⊢
      rw [List.idxOf_cons_ne _ otherType]
      by_cases same : first.otype = d.otype
      · rw [same, List.idxOf_cons_self]
        exact Nat.zero_le _
      · rw [List.idxOf_cons_ne _ same]
        exact Nat.succ_le_succ before

theorem walk_datum {index : Nat} (walk : filenametrWalk b otype data = .datum index) :
    ∃ before d after, data = before ++ d :: after ∧ index = before.length ∧ d.otype = otype ∧
      (∀ e ∈ before, holds b e = false) ∧ holds b d = false ∧ otype ∉ types before := by
  induction data generalizing index with
  | nil => cases walk
  | cons first next ih =>
    unfold filenametrWalk at walk
    split at walk
    · cases walk
    rename_i notHere
    have outside : holds b first = false := Bool.eq_false_of_not_eq_true notHere
    split at walk
    · rename_i same
      cases walk
      refine ⟨[], first, next, rfl, rfl, same, List.forall_mem_nil _, outside, ?_⟩
      exact List.not_mem_nil
    rename_i otherType
    cases rest : filenametrWalk b otype next with
    | duplicate => simp [rest] at walk
    | missing => simp [rest] at walk
    | datum later =>
      simp only [rest, FilenametrSlot.datum.injEq] at walk
      obtain ⟨before, d, after, rfl, rfl, same, none, outsideD, fresh⟩ := ih rest
      refine ⟨first :: before, d, after, rfl, walk.symm, same, ?_, outsideD, ?_⟩
      · exact List.forall_mem_cons.mpr ⟨outside, none⟩
      · rw [types, List.map_cons, List.mem_cons, not_or]
        exact ⟨Ne.symm otherType, fresh⟩

theorem walk_missing (walk : filenametrWalk b otype data = .missing) :
    (∀ d ∈ data, holds b d = false) ∧ otype ∉ types data := by
  induction data with
  | nil => exact ⟨List.forall_mem_nil _, List.not_mem_nil⟩
  | cons first next ih =>
    unfold filenametrWalk at walk
    split at walk
    · cases walk
    rename_i notHere
    split at walk
    · cases walk
    rename_i otherType
    have later : filenametrWalk b otype next = .missing := by
      cases rest : filenametrWalk b otype next with
      | duplicate => simp [rest] at walk
      | datum index => simp [rest] at walk
      | missing => rfl
    obtain ⟨none, fresh⟩ := ih later
    constructor
    · exact List.forall_mem_cons.mpr ⟨Bool.eq_false_of_not_eq_true notHere, none⟩
    · rw [types, List.map_cons, List.mem_cons, not_or]
      exact ⟨Ne.symm otherType, fresh⟩

end Groups

section OneKey

variable {rules : List FilenameRule} {r : FilenameRule} {data before after : List FilenameTransDatum}
  {d : FilenameTransDatum} {b c : Nat}

/-- The data of a key after its rules. -/
structure Regrouped (rules : List FilenameRule) (data : List FilenameTransDatum) : Prop where
  order : SameFirsts (types data) (introduced rules)
  once : (types data).Nodup
  canonical : ∀ d ∈ data, Canonical d.stypes
  held : ∀ r ∈ rules, ∃ d, data.find? (holds r.bit) = some d ∧
    (types data).idxOf d.otype ≤ (types data).idxOf r.otype
  given : ∀ d ∈ data, ∀ b, InBitmap d.stypes b → ∃ r ∈ rules, r.bit = b ∧ r.otype = d.otype

theorem regrouped_nil : Regrouped [] [] := by
  constructor
  · exact sameFirsts_nil
  · exact List.nodup_nil
  · exact List.forall_mem_nil _
  · exact List.forall_mem_nil _
  · exact List.forall_mem_nil _

theorem holds_iff (ok : Canonical d.stypes) : holds b d = true ↔ InBitmap d.stypes b :=
  getBit_iff (Canonical.built ok)

theorem addStype_spec (ok : Canonical d.stypes) (small : b < 2 ^ 32 - ebitmapSize) :
    Canonical (d.addStype b).stypes ∧ ∀ c, holds c (d.addStype b) = (decide (c = b) || holds c d) := by
  obtain ⟨made, bits⟩ := setBit_canonical ok (room_of_small small)
  refine ⟨made, fun c => ?_⟩
  rw [Bool.eq_iff_iff, Bool.or_eq_true, decide_eq_true_eq, holds_iff ok]
  exact (getBit_iff (Canonical.built made)).trans (bits c)

/-- The first rules of source types, with one more rule. -/
theorem introduced_snoc : introduced (rules ++ [r]) =
    introduced rules ++ if ∃ q ∈ rules, q.stype = r.stype then [] else [r.otype] := by
  unfold introduced
  rw [firstsBy_snoc, List.map_append]
  congr 1
  by_cases old : ∃ q ∈ rules, q.stype = r.stype
  · have seen : ([] ++ rules).any (fun q => r.stype == q.stype) = true := by
      obtain ⟨q, member, same⟩ := old
      exact List.any_eq_true.mpr ⟨q, member, beq_iff_eq.mpr same.symm⟩
    rw [if_pos old, if_pos seen]
    rfl
  · have unseen : ¬ ([] ++ rules).any (fun q => r.stype == q.stype) = true := by
      intro seen
      obtain ⟨q, member, same⟩ := List.any_eq_true.mp seen
      exact old ⟨q, member, (beq_iff_eq.mp same).symm⟩
    rw [if_neg old, if_neg unseen]
    rfl

theorem source_inj {s t : U32} (same : (s - 1).toNat = (t - 1).toNat) : s = t := by
  have := BitVec.eq_of_toNat_eq same
  bv_omega

theorem Regrouped.duplicate (ok : Regrouped rules data)
    (walk : filenametrWalk r.bit r.otype data = .duplicate) : Regrouped (rules ++ [r]) data := by
  obtain ⟨d, found, early⟩ := walk_duplicate walk
  have member := List.mem_of_find?_eq_some found
  have seen : ∃ q ∈ rules, q.stype = r.stype := by
    have inside := (holds_iff (ok.canonical d member)).mp (List.find?_some found)
    obtain ⟨q, old, same, -⟩ := ok.given d member _ inside
    exact ⟨q, old, source_inj same⟩
  constructor
  · rw [introduced_snoc, if_pos seen, List.append_nil]
    exact ok.order
  · exact ok.once
  · exact ok.canonical
  · refine List.forall_mem_append.mpr ⟨ok.held, ?_⟩
    rw [List.forall_mem_singleton]
    exact ⟨d, found, early⟩
  · intro e inside c set
    obtain ⟨q, old, same⟩ := ok.given e inside c set
    exact ⟨q, List.mem_append_left _ old, same⟩

theorem types_append : types (before ++ after) = types before ++ types after := List.map_append

theorem types_cons : types (d :: after) = d.otype :: types after := rfl

theorem find_before (none : ∀ e ∈ before, holds b e = false) :
    (before ++ after).find? (holds b) = after.find? (holds b) := by
  rw [List.find?_append, List.find?_eq_none.mpr fun e member => by rw [none e member]; exact Bool.false_ne_true]
  rfl

/-- A source type is added to the datum of its new type, where none before it has the source type. -/
theorem Regrouped.datum (small : r.bit < 2 ^ 32 - ebitmapSize)
    (ok : Regrouped rules (before ++ d :: after)) (same : d.otype = r.otype)
    (none : ∀ e ∈ before, holds r.bit e = false) (outside : holds r.bit d = false)
    (fresh : r.otype ∉ types before) :
    Regrouped (rules ++ [r]) (before ++ d.addStype r.bit :: after) := by
  have canonicalD := ok.canonical d (List.mem_append_right _ List.mem_cons_self)
  obtain ⟨made, bits⟩ := addStype_spec canonicalD small
  have sameTypes : types (before ++ d.addStype r.bit :: after) = types (before ++ d :: after) := by
    simp only [types, List.map_append, List.map_cons]
    rfl
  have hasNew : holds r.bit (d.addStype r.bit) = true := by
    rw [bits, decide_eq_true rfl, Bool.true_or]
  have place : (types (before ++ d :: after)).idxOf r.otype = (types before).length := by
    rw [types_append, List.idxOf_append_of_notMem fresh, types_cons, same, List.idxOf_cons_self, Nat.add_zero]
  constructor
  · rw [sameTypes, introduced_snoc]
    split
    · rw [List.append_nil]
      exact ok.order
    · refine ok.order.again ?_
      rw [← same]
      exact List.mem_map_of_mem (List.mem_append_right _ List.mem_cons_self)
  · rw [sameTypes]
    exact ok.once
  · obtain ⟨first, last⟩ := List.forall_mem_append.mp ok.canonical
    refine List.forall_mem_append.mpr ⟨first, List.forall_mem_cons.mpr ⟨made, ?_⟩⟩
    exact fun e inside => last e (List.mem_cons_of_mem _ inside)
  · rw [sameTypes]
    refine List.forall_mem_append.mpr ⟨fun q old => ?_, List.forall_mem_singleton.mpr ?_⟩
    · obtain ⟨e, found, early⟩ := ok.held q old
      by_cases here : q.bit = r.bit
      · refine ⟨d.addStype r.bit, ?_, ?_⟩
        · rw [here, find_before none, List.find?_cons, hasNew]
        · -- the datum that was found lies behind, so its type was introduced later
          rw [here, find_before none, List.find?_cons, outside] at found
          have behind := List.mem_of_find?_eq_some found
          have apart : e.otype ∉ types before := by
            have once := ok.once
            rw [types_append, List.nodup_append] at once
            intro inside
            exact once.2.2 _ inside _ (List.mem_map_of_mem (List.mem_cons_of_mem _ behind)) rfl
          have later : (types before).length ≤ (types (before ++ d :: after)).idxOf e.otype := by
            rw [types_append, List.idxOf_append_of_notMem apart]
            exact Nat.le_add_right _ _
          change (types (before ++ d :: after)).idxOf d.otype ≤ _
          rw [same, place]
          exact later.trans early
      · have kept : holds q.bit (d.addStype r.bit) = holds q.bit d := by
          rw [bits, decide_eq_false here, Bool.false_or]
        rw [List.find?_append, List.find?_cons] at found
        rw [List.find?_append, List.find?_cons, kept]
        cases first : before.find? (holds q.bit) with
        | some x =>
          rw [first] at found
          exact ⟨e, found, early⟩
        | none =>
          rw [first] at found
          cases inside : holds q.bit d with
          | true =>
            rw [inside] at found
            cases found
            exact ⟨d.addStype r.bit, rfl, early⟩
          | false =>
            rw [inside] at found
            exact ⟨e, found, early⟩
    · refine ⟨d.addStype r.bit, ?_, ?_⟩
      · rw [find_before none, List.find?_cons, hasNew]
      · change (types (before ++ d :: after)).idxOf d.otype ≤ _
        rw [same]
  · intro e inside c set
    have old : ∀ x ∈ before ++ d :: after, InBitmap x.stypes c → ∃ q ∈ rules ++ [r],
        q.bit = c ∧ q.otype = x.otype := by
      intro x member there
      obtain ⟨q, earlier, is⟩ := ok.given x member c there
      exact ⟨q, List.mem_append_left _ earlier, is⟩
    rcases List.mem_append.mp inside with first | last
    · exact old e (List.mem_append_left _ first) set
    rcases List.mem_cons.mp last with rfl | last
    · rw [← holds_iff made, bits, Bool.or_eq_true, decide_eq_true_eq] at set
      rcases set with rfl | before
      · exact ⟨r, List.mem_append_right _ List.mem_cons_self, rfl, same.symm⟩
      · exact old d (List.mem_append_right _ List.mem_cons_self) ((holds_iff canonicalD).mp before)
    · exact old e (List.mem_append_right _ (List.mem_cons_of_mem _ last)) set

/-- A new datum for a source type that has none and a new type. -/
theorem Regrouped.missing (small : r.bit < 2 ^ 32 - ebitmapSize) (ok : Regrouped rules data)
    (none : ∀ e ∈ data, holds r.bit e = false) (fresh : r.otype ∉ types data) :
    Regrouped (rules ++ [r])
      (data ++ [FilenameTransDatum.addStype { stypes := ebitmapInit, otype := r.otype } r.bit]) := by
  obtain ⟨made, bits⟩ := @addStype_spec { stypes := ebitmapInit, otype := r.otype } _ init_canonical small
  have type : (FilenameTransDatum.addStype { stypes := ebitmapInit, otype := r.otype } r.bit).otype =
    r.otype := rfl
  generalize FilenameTransDatum.addStype { stypes := ebitmapInit, otype := r.otype } r.bit = new at *
  have newBits : ∀ c, holds c new = decide (c = r.bit) := by
    intro c
    have empty : holds c { stypes := ebitmapInit, otype := r.otype } = false := by
      apply Bool.eq_false_of_not_eq_true
      exact fun set => init_bits ((getBit_iff (Canonical.built init_canonical)).mp set)
    rw [bits, empty, Bool.or_false]
  have last : types (data ++ [new]) = types data ++ [r.otype] := by
    rw [types_append, types_cons, type]
    rfl
  constructor
  · have unseen : ¬ ∃ q ∈ rules, q.stype = r.stype := by
      rintro ⟨q, old, same⟩
      obtain ⟨e, found, -⟩ := ok.held q old
      have sameBit : q.bit = r.bit := by rw [FilenameRule.bit, same, FilenameRule.bit]
      have set := List.find?_some found
      rw [sameBit, none e (List.mem_of_find?_eq_some found)] at set
      cases set
    rw [introduced_snoc, if_neg unseen, last]
    exact ok.order.new
  · rw [last, List.nodup_append]
    refine ⟨ok.once, List.nodup_singleton _, ?_⟩
    rintro type old _ here rfl
    rw [List.mem_singleton.mp here] at old
    exact fresh old
  · exact List.forall_mem_append.mpr ⟨ok.canonical, List.forall_mem_singleton.mpr made⟩
  · rw [last]
    refine List.forall_mem_append.mpr ⟨fun q old => ?_, List.forall_mem_singleton.mpr ?_⟩
    · obtain ⟨e, found, early⟩ := ok.held q old
      have member : e.otype ∈ types data := List.mem_map_of_mem (List.mem_of_find?_eq_some found)
      refine ⟨e, by rw [List.find?_append, found]; rfl, ?_⟩
      have inside := idxOf_cases q.otype (types data)
      rw [idxOf_snoc, idxOf_snoc, if_pos member]
      grind
    · refine ⟨new, ?_, ?_⟩
      · rw [find_before none, List.find?_cons, newBits, decide_eq_true rfl]
      · rw [type]
  · intro e inside c set
    rcases List.mem_append.mp inside with first | last
    · obtain ⟨q, old, is⟩ := ok.given e first c set
      exact ⟨q, List.mem_append_left _ old, is⟩
    · obtain rfl := List.mem_singleton.mp last
      rw [← holds_iff made, newBits, decide_eq_true_eq] at set
      exact ⟨r, List.mem_append_right _ List.mem_cons_self, set.symm, type.symm⟩

theorem modify_at (f : FilenameTransDatum → FilenameTransDatum) :
    (before ++ d :: after).modify before.length f = before ++ f d :: after := by
  induction before with
  | nil => rfl
  | cons e rest ih => rw [List.cons_append, List.length_cons, List.modify_succ_cons, ih, List.cons_append]

/-- What one more rule does to the data of its key. -/
theorem Regrouped.add (small : r.bit < 2 ^ 32 - ebitmapSize) (ok : Regrouped rules data) :
    Regrouped (rules ++ [r]) (addRule r.bit r.otype data) := by
  unfold addRule
  cases walk : filenametrWalk r.bit r.otype data with
  | duplicate => exact ok.duplicate walk
  | datum index =>
    obtain ⟨before, d, after, rfl, rfl, same, none, outside, fresh⟩ := walk_datum walk
    dsimp only
    rw [modify_at]
    exact ok.datum small same none outside fresh
  | missing =>
    obtain ⟨none, fresh⟩ := walk_missing walk
    exact ok.missing small none fresh

/-- The lookup gives the type that was introduced first among those of the rules of the source type. -/
theorem Regrouped.lookup (ok : Regrouped rules data) (b : Nat) (otype : U32) :
    (data.find? (holds b)).map FilenameTransDatum.otype = some otype ↔
      ∃ r ∈ rules, r.bit = b ∧ r.otype = otype ∧
        ∀ q ∈ rules, q.bit = b → (introduced rules).idxOf otype ≤ (introduced rules).idxOf q.otype := by
  rw [Option.map_eq_some_iff]
  constructor
  · rintro ⟨d, found, rfl⟩
    have member := List.mem_of_find?_eq_some found
    obtain ⟨r, old, is, same⟩ := ok.given d member b
      ((holds_iff (ok.canonical d member)).mp (List.find?_some found))
    refine ⟨r, old, is, same, fun q other here => ?_⟩
    obtain ⟨e, foundE, early⟩ := ok.held q other
    rw [here, found] at foundE
    cases foundE
    exact (ok.order.order _ _).mp early
  · rintro ⟨r, old, rfl, rfl, first⟩
    obtain ⟨d, found, early⟩ := ok.held r old
    refine ⟨d, found, ?_⟩
    have member := List.mem_of_find?_eq_some found
    obtain ⟨q, other, is, same⟩ := ok.given d member _
      ((holds_iff (ok.canonical d member)).mp (List.find?_some found))
    have back := (ok.order.order _ _).mpr (first q other is)
    rw [same] at back
    exact (List.idxOf_inj (List.mem_map_of_mem member)).mp (Nat.le_antisymm early back)

end OneKey

section Tables

variable {h h' : Hashtab FilenameTransKey (List FilenameTransDatum)} {k key : FilenameTransKey}
  {data : List FilenameTransDatum}

/-- Each chain is in order, from the base 0. -/
structure ChainsOk (h : Hashtab FilenameTransKey (List FilenameTransDatum)) : Prop where
  near : ∀ i, ∀ e ∈ h.htable.getD i [], Near 0 e.1
  sorted : ∀ i, Sorted (code 0) (h.htable.getD i [])

theorem ChainsOk.search (ok : ChainsOk h) (near : Near 0 k) (some : h.size ≠ 0) :
    hashtabSearch filenametrKeyParams h k = .some data ↔
      (k, data) ∈ h.htable.getD (hashtabSlot filenametrKeyParams h k) [] := by
  unfold hashtabSearch
  rw [if_neg some]
  exact chainSearch_iff (filenametrCmp_agrees 0) near (ok.near _) (ok.sorted _)

theorem ChainsOk.insert (ok : ChainsOk h) (near : Near 0 key)
    (step : Inserted filenametrKeyParams h h' key data) : ChainsOk h' := by
  have perm := chainInsert_perm step.link
  have sorted := chainInsert_sorted (filenametrCmp_agrees 0) near (ok.near _) (ok.sorted _) step.link
  constructor
  · intro i e member
    by_cases here : i = hashtabSlot filenametrKeyParams h key
    · subst here
      rcases List.mem_cons.mp (perm.mem_iff.mp member) with rfl | old
      · exact near
      · exact ok.near _ e old
    · rw [step.frame i here] at member
      exact ok.near i e member
  · intro i
    by_cases here : i = hashtabSlot filenametrKeyParams h key
    · subst here
      exact sorted
    · rw [step.frame i here]
      exact ok.sorted i

/-- After an insertion the new key has its data, and the others have theirs. -/
theorem search_insert (ok : ChainsOk h) (nearKey : Near 0 key) (near : Near 0 k)
    (fresh : hashtabSearch filenametrKeyParams h key = none)
    (step : Inserted filenametrKeyParams h h' key data) :
    hashtabSearch filenametrKeyParams h' k =
      if k = key then some data else hashtabSearch filenametrKeyParams h k := by
  have after := ok.insert nearKey step
  have some' : h'.size ≠ 0 := by
    rw [step.size]
    exact step.some
  have entry (found : List FilenameTransDatum) : (k, found) ∈
      h'.htable.getD (hashtabSlot filenametrKeyParams h k) [] ↔
      (k = key ∧ found = data) ∨ (k, found) ∈ h.htable.getD (hashtabSlot filenametrKeyParams h k) [] := by
    by_cases here : hashtabSlot filenametrKeyParams h k = hashtabSlot filenametrKeyParams h key
    · rw [here, (chainInsert_perm step.link).mem_iff, List.mem_cons, Prod.mk.injEq]
    · rw [step.frame _ here]
      refine (or_iff_right ?_).symm
      rintro ⟨rfl, -⟩
      exact here rfl
  apply Option.ext
  intro found
  rw [after.search near some', hashtabSlot_size step.size, entry]
  split
  · rename_i same
    subst same
    rw [← ok.search near step.some, fresh]
    simp only [true_and, reduceCtorEq, or_false, Option.some.injEq]
    exact eq_comm
  · rename_i other
    rw [ok.search near step.some]
    exact or_iff_right fun absurdity => other absurdity.1

/-- The replacement of the data of a key. -/
def replaced (key : FilenameTransKey) (data : List FilenameTransDatum)
    (entry : FilenameTransKey × List FilenameTransDatum) : FilenameTransKey × List FilenameTransDatum :=
  if entry.1 = key then (key, data) else entry

theorem replaced_key (entry : FilenameTransKey × List FilenameTransDatum) :
    (replaced key data entry).1 = entry.1 := by
  unfold replaced
  split
  · rename_i same
    exact same.symm
  · rfl

theorem update_chain (i : Nat) : (filenametrUpdate h key data).htable.getD i [] =
    (h.htable.getD i []).map (replaced key data) := by
  unfold filenametrUpdate
  simp only [List.getD_eq_getElem?_getD, List.getElem?_map]
  cases h.htable[i]? with
  | none => rfl
  | some chain => rfl

theorem update_size : (filenametrUpdate h key data).size = h.size := by
  simp only [filenametrUpdate, Hashtab.size, List.length_map]

theorem ChainsOk.update (ok : ChainsOk h) : ChainsOk (filenametrUpdate h key data) := by
  constructor
  · intro i e member
    rw [update_chain] at member
    obtain ⟨old, there, rfl⟩ := List.mem_map.mp member
    rw [replaced_key]
    exact ok.near i old there
  · intro i
    rw [update_chain, Sorted, List.pairwise_map]
    simp only [replaced_key]
    exact ok.sorted i

theorem chainSearch_update (chain : List (FilenameTransKey × List FilenameTransDatum)) :
    hashtabChainSearch filenametrCmp k (chain.map (replaced key data)) =
      (hashtabChainSearch filenametrCmp k chain).map fun old => if k = key then data else old := by
  induction chain with
  | nil => rfl
  | cons cur next ih =>
    simp only [List.map_cons, hashtabChainSearch, replaced_key, ih]
    split
    · rename_i same
      obtain rfl := filenametrCmp_zero.mp same
      unfold replaced
      split <;> rfl
    split <;> rfl

theorem search_update (filed : (hashtabSearch filenametrKeyParams h key).isSome) :
    hashtabSearch filenametrKeyParams (filenametrUpdate h key data) k =
      if k = key then some data else hashtabSearch filenametrKeyParams h k := by
  have all : hashtabSearch filenametrKeyParams (filenametrUpdate h key data) k =
      (hashtabSearch filenametrKeyParams h k).map fun old => if k = key then data else old := by
    unfold hashtabSearch
    rw [update_size, hashtabSlot_size update_size, update_chain]
    split
    · rfl
    · exact chainSearch_update _
  rw [all]
  split
  · rename_i same
    subst same
    obtain ⟨old, found⟩ := Option.isSome_iff_exists.mp filed
    rw [found]
    rfl
  · exact Option.map_id'

end Tables

section Reading

variable {st st' : FilenameTrans} {rules : List FilenameRule} {r : FilenameRule} {bytes rest : List U8}

/-- A rule in `filename_trans_read_helper_compat`. -/
def filenameTransRule : PolicyReader FilenameRule := do
  let len ← nextU32
  let name ← strRead len
  let stype ← nextU32
  let ttype ← nextU32
  let tclass ← nextU32
  let otype ← nextU32
  pure { stype, ttype, tclass, name, otype }

theorem filenameTransReadHelperCompat_eq (st : FilenameTrans) : filenameTransReadHelperCompat st =
    filenameTransRule >>= fun r => ByteReader.lift (filenametrAddCompat st r.stype r.key r.otype) := by
  unfold filenameTransReadHelperCompat filenameTransRule
  simp only [ByteReader.bind_assoc]
  rfl

/-- Types that the bitmaps and the order of the keys have room for. -/
structure Fits (r : FilenameRule) : Prop where
  source : r.bit < 2 ^ 32 - ebitmapSize
  target : r.ttype.toNat < 2 ^ 31

theorem Fits.near (fits : Fits r) : Near 0 r.key := by
  simpa [Near, distance, FilenameRule.key] using fits.target

/-- The data of a key; none where it is not in the table. -/
def dataOf (st : FilenameTrans) (k : FilenameTransKey) : List FilenameTransDatum :=
  (hashtabSearch filenametrKeyParams st.1 k).getD []

/-- What a rule does to the table and to the bitmap. -/
structure RuleAdded (st st' : FilenameTrans) (r : FilenameRule) : Prop where
  size : st'.1.size = st.1.size
  chains : ChainsOk st'.1
  data : ∀ k, Near 0 k → dataOf st' k = if k = r.key then addRule r.bit r.otype (dataOf st r.key)
    else dataOf st k
  filed : ∀ k, Near 0 k → (hashtabSearch filenametrKeyParams st'.1 k).isSome →
    k = r.key ∨ (hashtabSearch filenametrKeyParams st.1 k).isSome
  filter : st'.2 = if (hashtabSearch filenametrKeyParams st.1 r.key).isSome then st.2
    else ebitmapSetBit st.2 r.ttype.toNat true

theorem ruleAdded_update {data : List FilenameTransDatum} (ok : ChainsOk st.1)
    (found : hashtabSearch filenametrKeyParams st.1 r.key = some data) :
    RuleAdded st (filenametrUpdate st.1 r.key (addRule r.bit r.otype data), st.2) r := by
  have filed : (hashtabSearch filenametrKeyParams st.1 r.key).isSome := by
    rw [found]
    rfl
  have after (k : FilenameTransKey) := @search_update st.1 k r.key (addRule r.bit r.otype data) filed
  constructor
  · exact update_size
  · exact ok.update
  · intro k _
    unfold dataOf
    rw [after, found]
    split <;> rfl
  · intro k _ some
    by_cases same : k = r.key
    · exact .inl same
    · rw [after, if_neg same] at some
      exact .inr some
  · rw [if_pos filed]

theorem ruleAdded_same {data : List FilenameTransDatum} (ok : ChainsOk st.1)
    (found : hashtabSearch filenametrKeyParams st.1 r.key = some data)
    (kept : addRule r.bit r.otype data = data) : RuleAdded st st r := by
  constructor
  · rfl
  · exact ok
  · intro k _
    split
    · rename_i same
      simp only [dataOf, same, found, Option.getD_some, kept]
    · rfl
  · exact fun _ _ some => .inr some
  · rw [found]
    rfl

theorem ruleAdded_insert {table : Hashtab FilenameTransKey (List FilenameTransDatum)} (ok : ChainsOk st.1)
    (fits : Fits r) (fresh : hashtabSearch filenametrKeyParams st.1 r.key = none)
    (step : Inserted filenametrKeyParams st.1 table r.key (addRule r.bit r.otype [])) :
    RuleAdded st (table, ebitmapSetBit st.2 r.ttype.toNat true) r := by
  have after (k : FilenameTransKey) (near : Near 0 k) := search_insert ok fits.near near fresh step
  constructor
  · exact step.size
  · exact ok.insert fits.near step
  · intro k near
    unfold dataOf
    rw [after k near, fresh]
    split <;> rfl
  · intro k near some
    by_cases same : k = r.key
    · exact .inl same
    · rw [after k near, if_neg same] at some
      exact .inr some
  · rw [fresh]
    rfl

theorem filenametrAddCompat_added (ok : ChainsOk st.1) (fits : Fits r)
    (added : filenametrAddCompat st r.stype r.key r.otype = .ok st') : RuleAdded st st' r := by
  unfold filenametrAddCompat at added
  dsimp only at added
  cases found : hashtabSearch filenametrKeyParams st.1 r.key with
  | some data =>
    have update := @ruleAdded_update st r data ok found
    rw [found] at added
    dsimp only at added
    change (match filenametrWalk r.bit r.otype data with
      | .duplicate => _
      | .datum index => _
      | .missing => _) = _ at added
    unfold addRule at update
    cases walk : filenametrWalk r.bit r.otype data with
    | duplicate =>
      rw [walk] at added
      cases added
      refine ruleAdded_same ok found ?_
      rw [addRule, walk]
    | datum index =>
      rw [walk] at added update
      cases added
      exact update
    | missing =>
      rw [walk] at added update
      cases added
      exact update
  | none =>
    rw [found] at added
    dsimp only at added
    split at added
    · cases added
    · rename_i table inserted
      cases added
      exact ruleAdded_insert ok fits found (hashtabInsert_inserted inserted)

/-- The state after some rules. -/
structure RulesRead (st : FilenameTrans) (rules : List FilenameRule) : Prop where
  chains : ChainsOk st.1
  filter : Canonical st.2
  low : ∀ x, InBitmap st.2 x → x < 2 ^ 31
  filed : ∀ k, Near 0 k → (hashtabSearch filenametrKeyParams st.1 k).isSome → InBitmap st.2 k.ttype.toNat
  data : ∀ k, Near 0 k → Regrouped (rulesOf rules k) (dataOf st k)

theorem rulesRead_init {nel : U32} {table : Hashtab FilenameTransKey (List FilenameTransDatum)}
    (made : hashtabInit nel = .ok table) : RulesRead (table, ebitmapInit) [] := by
  have placed := @placed_init _ _ filenametrKeyParams _ _ made
  have empty (i : Nat) : table.htable.getD i [] = [] := by
    refine List.eq_nil_iff_forall_not_mem.mpr fun e member => ?_
    exact List.not_mem_nil (placed.mem_chain.mp member).1
  have none (k : FilenameTransKey) : hashtabSearch filenametrKeyParams table k = none := by
    unfold hashtabSearch
    rw [empty]
    split <;> rfl
  constructor
  · constructor
    · intro i
      rw [empty]
      exact List.forall_mem_nil _
    · intro i
      rw [empty]
      exact List.Pairwise.nil
  · exact init_canonical
  · exact fun x inside => absurd inside init_bits
  · intro k _ some
    rw [none] at some
    cases some
  · intro k _
    rw [dataOf, none]
    exact regrouped_nil

theorem rulesOf_snoc (k : FilenameTransKey) :
    rulesOf (rules ++ [r]) k = rulesOf rules k ++ if k = r.key then [r] else [] := by
  unfold rulesOf
  rw [List.filter_append]
  congr 1
  by_cases same : k = r.key
  · rw [if_pos same]
    simp [same]
  · rw [if_neg same]
    simpa using Ne.symm same

theorem RulesRead.add (ok : RulesRead st rules) (fits : Fits r)
    (added : filenametrAddCompat st r.stype r.key r.otype = .ok st') : RulesRead st' (rules ++ [r]) := by
  have step := filenametrAddCompat_added ok.chains fits added
  have room : r.ttype.toNat < 2 ^ 32 - ebitmapSize := by
    have := fits.target
    unfold ebitmapSize
    omega
  obtain ⟨made, bits⟩ := setBit_canonical ok.filter (room_of_small room)
  have filter : Canonical st'.2 ∧ (∀ x, InBitmap st'.2 x ↔ x = r.ttype.toNat ∨ InBitmap st.2 x) := by
    rw [step.filter]
    split
    · rename_i there
      refine ⟨ok.filter, fun x => (or_iff_right_of_imp ?_).symm⟩
      rintro rfl
      exact ok.filed r.key fits.near there
    · exact ⟨made, bits⟩
  constructor
  · exact step.chains
  · exact filter.1
  · intro x inside
    rcases (filter.2 x).mp inside with rfl | old
    · exact fits.target
    · exact ok.low x old
  · intro k near some
    rw [filter.2]
    rcases step.filed k near some with rfl | old
    · exact .inl rfl
    · exact .inr (ok.filed k near old)
  · intro k near
    rw [step.data k near, rulesOf_snoc]
    split
    · rename_i same
      subst same
      exact (ok.data _ near).add fits.source
    · rw [List.append_nil]
      exact ok.data k near

/-- The loop of `filename_trans_read` over rules of the old format. -/
theorem rulesRead_loop {nel : U32} {table : Hashtab FilenameTransKey (List FilenameTransDatum)} {n : Nat}
    (made : hashtabInit nel = .ok table)
    (read : ByteReader.times filenameTransReadHelperCompat n (table, ebitmapInit) bytes = .ok (st, rest)) :
    ∃ rules, ByteReader.several filenameTransRule n bytes = .ok (rules, rest) ∧
      ((∀ r ∈ rules, Fits r) → RulesRead st rules) := by
  refine ByteReader.times_several (fun st rules => (∀ r ∈ rules, Fits r) → RulesRead st rules) ?_
    (fun _ => rulesRead_init made) read
  intro st bytes st' rest rules before once
  rw [filenameTransReadHelperCompat_eq, ByteReader.bind_ok] at once
  obtain ⟨r, _, taken, added⟩ := once
  obtain ⟨done, rfl⟩ := ByteReader.lift_ok.mp added
  refine ⟨r, taken, fun fits => ?_⟩
  obtain ⟨old, new⟩ := List.forall_mem_append.mp fits
  exact (before old).add (new r List.mem_cons_self) done

end Reading

section Lookup

variable {p p' q : Policydb} {rules : List FilenameRule} {r : FilenameRule} {bytes rest : List U8}

/-- Each lookup gives the type of the first rule, or none where there is no rule. -/
def FirstRulesFound (p : Policydb) (rules : List FilenameRule) : Prop :=
  ∀ (scontext tcontext : Context) (tclass : U16) (objname : Name),
    filenameComputeType p scontext tcontext tclass objname =
      (firstRule rules scontext.type { ttype := tcontext.type, tclass, name := objname }).map
        FilenameRule.otype

/-- No rule gives a type that was introduced before the one of the first rule. -/
def FirstTypesFirst (rules : List FilenameRule) : Prop :=
  ∀ r ∈ rules, ∃ first, firstRule rules r.stype r.key = some first ∧
    (introduced (rulesOf rules r.key)).idxOf first.otype ≤ (introduced (rulesOf rules r.key)).idxOf r.otype

theorem mem_rulesOf {k : FilenameTransKey} : r ∈ rulesOf rules k ↔ r ∈ rules ∧ r.key = k := by
  rw [rulesOf, List.mem_filter, decide_eq_true_eq]

theorem firstRule_spec {stype : U32} {k : FilenameTransKey} {first : FilenameRule}
    (found : firstRule rules stype k = some first) : first ∈ rulesOf rules k ∧ first.stype = stype := by
  have about := List.find?_some found
  simp only [FilenameRule.isAbout, Bool.and_eq_true, decide_eq_true_eq] at about
  obtain ⟨⟨⟨sameSource, sameTarget⟩, sameClass⟩, sameName⟩ := about
  refine ⟨mem_rulesOf.mpr ⟨List.mem_of_find?_eq_some found, ?_⟩, sameSource⟩
  unfold FilenameRule.key
  rw [sameTarget, sameClass, sameName]
  obtain ⟨ttype, tclass, name⟩ := k
  simp

/-- The lookup in the state after some rules. -/
theorem computeType_dataOf {st : FilenameTrans} (ok : RulesRead st rules)
    (table : p.filenameTrans = st.1) (filter : p.filenameTransTtypes = st.2)
    {scontext tcontext : Context} {tclass : U16} {objname : Name}
    (near : Near 0 { ttype := tcontext.type, tclass, name := objname }) :
    filenameComputeType p scontext tcontext tclass objname =
      ((dataOf st { ttype := tcontext.type, tclass, name := objname }).find?
        (holds (scontext.type - 1).toNat)).map FilenameTransDatum.otype := by
  unfold filenameComputeType policydbFilenametrSearch dataOf
  rw [table, filter]
  cases found : hashtabSearch filenametrKeyParams st.1 { ttype := tcontext.type, tclass, name := objname } with
  | none =>
    split <;> rfl
  | some data =>
    have set := ok.filed _ near (by rw [found]; rfl)
    rw [if_pos ((getBit_iff (Canonical.built ok.filter)).mpr set)]
    rfl

theorem not_near_none {st : FilenameTrans} (ok : RulesRead st rules) (filter : p.filenameTransTtypes = st.2)
    {scontext tcontext : Context} {tclass : U16} {objname : Name} (far : ¬ tcontext.type.toNat < 2 ^ 31) :
    filenameComputeType p scontext tcontext tclass objname = none := by
  unfold filenameComputeType
  rw [filter, if_neg]
  intro set
  exact far (ok.low _ ((getBit_iff (Canonical.built ok.filter)).mp set))

theorem typesFirst_of_found {st : FilenameTrans} (ok : RulesRead st rules) (fits : ∀ r ∈ rules, Fits r)
    (table : p.filenameTrans = st.1) (filter : p.filenameTransTtypes = st.2)
    (all : FirstRulesFound p rules) : FirstTypesFirst rules := by
  intro r member
  have near := (fits r member).near
  have found := all { contextInit with type := r.stype } { contextInit with type := r.ttype }
    (r.tclass.truncate 16) r.name
  rw [computeType_dataOf ok table filter near] at found
  change ((dataOf st r.key).find? (holds r.bit)).map _ = (firstRule rules r.stype r.key).map _ at found
  have data := ok.data r.key near
  obtain ⟨d, held, -⟩ := data.held r (mem_rulesOf.mpr ⟨member, rfl⟩)
  rw [held, Option.map_some] at found
  obtain ⟨first, is, same⟩ := Option.map_eq_some_iff.mp found.symm
  refine ⟨first, is, ?_⟩
  obtain ⟨-, -, -, -, least⟩ := (data.lookup r.bit d.otype).mp (by rw [held, Option.map_some])
  rw [same]
  exact least r (mem_rulesOf.mpr ⟨member, rfl⟩) rfl

theorem found_of_typesFirst {st : FilenameTrans} (ok : RulesRead st rules) (fits : ∀ r ∈ rules, Fits r)
    (table : p.filenameTrans = st.1) (filter : p.filenameTransTtypes = st.2)
    (ordered : FirstTypesFirst rules) : FirstRulesFound p rules := by
  intro scontext tcontext tclass objname
  by_cases far : ¬ tcontext.type.toNat < 2 ^ 31
  · rw [not_near_none ok filter far]
    symm
    rw [Option.map_eq_none_iff, Option.eq_none_iff_forall_ne_some]
    intro first found
    obtain ⟨member, sameKey⟩ := mem_rulesOf.mp (firstRule_spec found).1
    have target := (fits first member).target
    have same : first.ttype = tcontext.type := congrArg FilenameTransKey.ttype sameKey
    rw [same] at target
    exact far target
  rw [not_not] at far
  have near : Near 0 { ttype := tcontext.type, tclass, name := objname } := by
    simpa [Near, distance] using far
  rw [computeType_dataOf ok table filter near]
  have data := ok.data _ near
  by_cases some : ∃ r ∈ rulesOf rules { ttype := tcontext.type, tclass, name := objname },
      r.stype = scontext.type
  · obtain ⟨r, member, source⟩ := some
    obtain ⟨old, sameKey⟩ := mem_rulesOf.mp member
    obtain ⟨first, found, -⟩ := ordered r old
    rw [source, sameKey] at found
    obtain ⟨filed, firstSource⟩ := firstRule_spec found
    rw [found, Option.map_some]
    refine (data.lookup _ _).mpr ⟨first, filed, by rw [FilenameRule.bit, firstSource], rfl, ?_⟩
    intro q other sameBit
    obtain ⟨oldQ, keyQ⟩ := mem_rulesOf.mp other
    obtain ⟨firstQ, foundQ, least⟩ := ordered q oldQ
    rw [source_inj sameBit, keyQ, found] at foundQ
    cases foundQ
    rw [keyQ] at least
    exact least
  · have none : firstRule rules scontext.type { ttype := tcontext.type, tclass, name := objname } = .none := by
      rw [Option.eq_none_iff_forall_ne_some]
      intro first found
      obtain ⟨filed, source⟩ := firstRule_spec found
      exact some ⟨first, filed, source⟩
    rw [none, Option.map_none, Option.eq_none_iff_forall_ne_some]
    intro otype found
    obtain ⟨r, member, sameBit, -⟩ := (data.lookup _ _).mp found
    exact some ⟨r, member, source_inj sameBit⟩

/-- A rule with valid types and a valid class. -/
def RuleValid (p : Policydb) (r : FilenameRule) : Prop :=
  policydbTypeIsvalid p r.stype = true ∧ policydbTypeIsvalid p r.ttype = true ∧
    policydbTypeIsvalid p r.otype = true ∧ policydbClassIsvalid p r.tclass = true

/-- The array of types that `policydb_index` makes is not too long to be allocated. -/
theorem index_types (indexed : policydbIndex p = .ok q) : p.pTypes.nprim.toNat < 2 ^ 28 := by
  simp only [policydbIndex, exceptBind_ok] at indexed
  obtain ⟨_, -, _, -, _, -, types, made, -⟩ := indexed
  unfold pointerArray at made
  split at made
  · cases made
  · rename_i room
    unfold kvmallocMax at room
    omega

theorem RuleValid.fits (few : p.pTypes.nprim.toNat < 2 ^ 28) (valid : RuleValid p r) : Fits r := by
  obtain ⟨source, target, -, -⟩ := valid
  unfold policydbTypeIsvalid valueIsvalid at source target
  simp only [Bool.and_eq_true, decide_eq_true_eq, BitVec.le_def] at source target
  constructor
  · unfold FilenameRule.bit ebitmapSize
    have : (r.stype - 1).toNat < 2 ^ 28 := by bv_omega
    omega
  · omega

/-- The lookup gives the type of the first rule just where no rule gives a type that was introduced
before it. -/
theorem first_rules_found_iff (fresh : p.filenameTransTtypes = ebitmapInit)
    (named : policydbVersionFilenameTrans ≤ p.policyvers) (compat : p.policyvers < policydbVersionCompFtrans)
    (read : filenameTransRead p bytes = .ok (p', rest)) (indexed : policydbIndex p' = .ok q) :
    ∃ nel mid rules, nextU32 bytes = .ok (nel, mid) ∧
      ByteReader.several filenameTransRule nel.toNat mid = .ok (rules, rest) ∧
      ((∀ r ∈ rules, RuleValid q r) → (FirstRulesFound q rules ↔ FirstTypesFirst rules)) := by
  unfold filenameTransRead at read
  rw [if_neg (by simpa using named)] at read
  simp only [ByteReader.bind_ok, if_pos compat, ByteReader.lift_ok, ByteReader.pure_ok] at read
  obtain ⟨nel, mid, count, table, _, ⟨made, rfl⟩, st, _, loop, made', rfl⟩ := read
  rw [fresh] at loop
  obtain ⟨rules, taken, after⟩ := rulesRead_loop made loop
  refine ⟨nel, mid, rules, count, taken, fun valid => ?_⟩
  have few := index_types indexed
  have frame := (policydbIndex_ok indexed).1
  have tables : q.filenameTrans = st.1 ∧ q.filenameTransTtypes = st.2 ∧ q.pTypes = p'.pTypes := by
    rw [frame, ← made']
    exact ⟨rfl, rfl, rfl⟩
  obtain ⟨table, filter, types⟩ := tables
  rw [← types] at few
  have fits : ∀ r ∈ rules, Fits r := fun r member => (valid r member).fits few
  exact ⟨typesFirst_of_found (after fits) fits table filter,
    found_of_typesFirst (after fits) fits table filter⟩

end Lookup

section Conflict

/-- The bytes of a rule. -/
def ruleBytesCompat (r : FilenameRule) : List U8 :=
  word r.name.length ++ r.name ++ cpuToLe32 r.stype ++ cpuToLe32 r.ttype ++ cpuToLe32 r.tclass ++
    cpuToLe32 r.otype

/-- The second source type has a rule for the second type and then one for the first type, which the
first source type introduced. -/
def conflicts : List FilenameRule :=
  [{ stype := 1, ttype := 1, tclass := 1, name := [97], otype := 1 },
    { stype := 2, ttype := 1, tclass := 1, name := [97], otype := 2 },
    { stype := 2, ttype := 1, tclass := 1, name := [97], otype := 1 }]

/-- An image with these rules, of the last version with the old format. -/
def conflictImage : PolicyImage :=
  { smallImage with
    header := word policydbMagic.toNat ++ word policydbString.length ++ policydbString ++ word 32 ++ word 0 ++
      word 8 ++ word 9 ++ emptyBitmap ++ emptyBitmap
    fileTrans := counted (conflicts.map ruleBytesCompat) }

instance (p : Policydb) (r : FilenameRule) : Decidable (RuleValid p r) :=
  inferInstanceAs (Decidable (_ ∧ _ ∧ _ ∧ _))

theorem first_rules_found_iff_conflicts : ∃ p' rest q nel mid rules,
    filenameTransRead { policydbInit with policyvers := 32 } (counted (conflicts.map ruleBytesCompat)) =
        .ok (p', rest) ∧
      policydbIndex p' = .ok q ∧ nextU32 (counted (conflicts.map ruleBytesCompat)) = .ok (nel, mid) ∧
      ByteReader.several filenameTransRule nel.toNat mid = .ok (rules, rest) ∧
      ((∀ r ∈ rules, RuleValid q r) → (FirstRulesFound q rules ↔ FirstTypesFirst rules)) := by
  have reads : ((filenameTransRead { policydbInit with policyvers := 32 }
      (counted (conflicts.map ruleBytesCompat))).toOption.any fun after =>
        (policydbIndex after.1).toOption.isSome) = true := by
    decide +kernel
  cases read : filenameTransRead { policydbInit with policyvers := 32 }
      (counted (conflicts.map ruleBytesCompat)) with
  | error e =>
    rw [read] at reads
    cases reads
  | ok after =>
    rw [read] at reads
    obtain ⟨p', rest⟩ := after
    cases indexed : policydbIndex p' with
    | error e =>
      have failed : (policydbIndex p').toOption.isSome = true := reads
      rw [indexed] at failed
      cases failed
    | ok q =>
      obtain ⟨nel, mid, rules, count, taken, found⟩ := first_rules_found_iff rfl (by decide) (by decide) read
        indexed
      exact ⟨p', rest, q, nel, mid, rules, rfl, indexed, count, taken, found⟩

/-- A later rule goes before the first one of its source type. -/
theorem first_rule_passed : ∃ p rest, policydbRead conflictImage.bytes = .ok (p, rest) ∧
    (ByteReader.several filenameTransRule 3 (conflicts.flatMap ruleBytesCompat)).toOption =
      some (conflicts, []) ∧ (∀ r ∈ conflicts, RuleValid p r) ∧
    filenameComputeType p { contextInit with type := 2 } { contextInit with type := 1 } 1 [97] = some 1 ∧
    (firstRule conflicts 2 { ttype := 1, tclass := 1, name := [97] }).map FilenameRule.otype = some 2 ∧
    ¬ FirstRulesFound p conflicts := by
  have accepted : conflictImage.accepts (fun p => decide (∀ r ∈ conflicts, RuleValid p r) &&
      filenameComputeType p { contextInit with type := 2 } { contextInit with type := 1 } 1 [97] ==
        some 1) = true := by
    decide +kernel
  obtain ⟨p, rest, read, tests⟩ := PolicyImage.accepts_iff.mp accepted
  rw [Bool.and_eq_true, decide_eq_true_eq] at tests
  obtain ⟨valid, computed⟩ := tests
  have later := eq_of_beq computed
  have first : (firstRule conflicts 2 { ttype := 1, tclass := 1, name := [97] }).map FilenameRule.otype =
      some 2 := by
    decide
  refine ⟨p, rest, read, by decide, valid, later, first, fun all => ?_⟩
  have same := all { contextInit with type := 2 } { contextInit with type := 1 } 1 [97]
  rw [later, first] at same
  exact absurd same (by decide)

end Conflict

end Ksrc.Guarantees.FilenameRules

import Ksrc.Source.ContextBuffer
import Ksrc.Guarantees.ContextRoundTrip

/-!
# Context strings fill their buffer

Source: `security/selinux/ss/mls.c` (`mls_compute_context_len`, `mls_sid_to_context`),
`services.c` (`context_struct_to_string`).

The walk that adds lengths and the walk that writes take the same turns, so the size is that
of the text and its terminator, as far as 32 bits can count it.
-/
namespace Ksrc.Guarantees.ContextBuffers

open Library Source ContextRoundTrip

section Text

variable (p : Policydb)

/-- What the close of a run writes. -/
def closeText (head prev : U32) : Except Fault (List U8) :=
  if prev ≠ head then do
    let nm ← symName p.symValToName.cats (prev + 1)
    pure ((if skipped prev head then dot else comma) :: nm)
  else pure []

/-- What the loop over the categories writes. -/
def catsText : List U32 → U32 → U32 → Except Fault (List U8)
  | [], head, prev => closeText p head prev
  | i :: rest, head, prev =>
    if skipped i prev then do
      let close ← closeText p head prev
      let nm ← symName p.symValToName.cats (i + 1)
      let later ← catsText rest i i
      pure (close ++ ([if prev.toInt < 0 then colon else comma] ++ (nm ++ later)))
    else catsText rest head i

def levelText (l : MlsLevel) : Except Fault (List U8) := do
  let sens ← symName p.symValToName.levels l.sens
  let cats ← catsText p (ebitmapPositiveBits l.cat) noCategory noCategory
  pure (sens ++ cats)

def mlsText (c : Context) : Except Fault (List U8) :=
  if ¬ p.mlsEnabled then .ok []
  else do
    let low ← levelText p c.range.low
    if mlsLevelEq c.range.low c.range.high then pure ([colon] ++ (low ++ []))
    else do
      let high ← levelText p c.range.high
      pure ([colon] ++ (low ++ ([dash] ++ high)))

/-- The string of a context, without its terminator. -/
def contextText (c : Context) : Except Fault (List U8) :=
  match c.str with
  | some str => .ok str
  | none => do
    let user ← symName p.symValToName.users c.user
    let role ← symName p.symValToName.roles c.role
    let type ← symName p.symValToName.types c.type
    let mls ← mlsText p c
    pure ((user ++ colon :: role ++ colon :: type) ++ mls)

end Text

/-- Every value the context uses has a name. -/
structure NamesInUse (p : Policydb) (c : Context) : Prop where
  user : ∃ name, symName p.symValToName.users c.user = .ok name
  role : ∃ name, symName p.symValToName.roles c.role = .ok name
  type : ∃ name, symName p.symValToName.types c.type = .ok name
  sens : p.mlsEnabled = true → ∀ l ∈ [c.range.low, c.range.high],
    ∃ name, symName p.symValToName.levels l.sens = .ok name
  cats : p.mlsEnabled = true → ∀ l ∈ [c.range.low, c.range.high],
    ∀ b ∈ ebitmapPositiveBits l.cat, ∃ name, symName p.symValToName.cats (b + 1) = .ok name

/-- The length of a text as 32 bits count it. -/
def textLen (text : List U8) : U32 := BitVec.ofNat 32 text.length

theorem textLen_append (s t : List U8) : textLen (s ++ t) = textLen s + textLen t := by
  rw [textLen, List.length_append, BitVec.ofNat_add]
  rfl

theorem textLen_cons (c : U8) (t : List U8) : textLen (c :: t) = 1 + textLen t :=
  textLen_append [c] t

theorem nameLen_eq (name : Name) : nameLen name = textLen name := rfl

section Walks

variable {p : Policydb} {head prev : U32} {text : List U8}

/-- The close of a run: its length and its writes. -/
theorem close_walks (found : closeText p head prev = .ok text) :
    mlsContextLenClose p head prev = .ok (textLen text) ∧
      OutBuffer.Emits (mlsWriteClose p head prev) text := by
  unfold closeText at found
  unfold mlsContextLenClose mlsWriteClose
  by_cases same : prev = head
  · rw [if_neg (not_not.mpr same)] at found ⊢
    rw [if_neg (not_not.mpr same.symm)]
    cases found
    exact ⟨rfl, OutBuffer.emits_skip⟩
  · rw [if_pos same] at found ⊢
    rw [if_pos (Ne.symm same)]
    cases name : symName p.symValToName.cats (prev + 1) with
    | error e =>
      rw [name] at found
      cases found
    | ok nm =>
      rw [name] at found
      cases found
      constructor
      · refine congrArg Except.ok ?_
        rw [textLen_cons, nameLen_eq, BitVec.add_comm]
      · exact (OutBuffer.emits_put _ _).andThen
          (OutBuffer.Emits.withValue name (OutBuffer.emits_copyString _ _ _))

/-- The loop over the categories. -/
theorem cats_walks {bits : List U32} (found : catsText p bits head prev = .ok text) :
    mlsContextLenCats p bits head prev = .ok (textLen text) ∧
      OutBuffer.Emits (mlsWriteCats p bits head prev) text := by
  induction bits generalizing head prev text with
  | nil => exact close_walks found
  | cons i rest ih =>
    rw [catsText] at found
    rw [mlsContextLenCats, mlsWriteCats]
    by_cases gap : skipped i prev = true
    · rw [if_pos gap] at found ⊢
      rw [if_pos gap]
      cases closed : closeText p head prev with
      | error e =>
        rw [closed] at found
        cases found
      | ok close =>
        cases name : symName p.symValToName.cats (i + 1) with
        | error e =>
          rw [closed, name] at found
          cases found
        | ok nm =>
          cases went : catsText p rest i i with
          | error e =>
            rw [closed, name, went] at found
            cases found
          | ok later =>
            rw [closed, name, went] at found
            cases found
            obtain ⟨closeLen, closeWrite⟩ := close_walks closed
            obtain ⟨laterLen, laterWrite⟩ := ih went
            constructor
            · rw [closeLen, laterLen]
              refine congrArg Except.ok ?_
              rw [textLen_append, textLen_append, textLen_append, nameLen_eq]
              have one : textLen [if prev.toInt < 0 then colon else comma] = 1 := rfl
              rw [one]
              ac_rfl
            · exact closeWrite.andThen ((OutBuffer.emits_put _ _).andThen
                ((OutBuffer.Emits.withValue name (OutBuffer.emits_copyString _ _ _)).andThen
                  laterWrite))
    · rw [if_neg gap] at found ⊢
      rw [if_neg gap]
      exact ih found

theorem level_walks {l : MlsLevel} (found : levelText p l = .ok text) :
    mlsContextLenLevel p l = .ok (textLen text) ∧ OutBuffer.Emits (mlsWriteLevel p l) text := by
  unfold levelText at found
  unfold mlsContextLenLevel mlsWriteLevel
  cases name : symName p.symValToName.levels l.sens with
  | error e =>
    rw [name] at found
    cases found
  | ok sens =>
    cases went : catsText p (ebitmapPositiveBits l.cat) noCategory noCategory with
    | error e =>
      rw [name, went] at found
      cases found
    | ok cats =>
      rw [name, went] at found
      cases found
      obtain ⟨catsLen, catsWrite⟩ := cats_walks went
      constructor
      · rw [catsLen]
        refine congrArg Except.ok ?_
        rw [textLen_append, nameLen_eq]
      · exact (OutBuffer.Emits.withValue rfl (OutBuffer.emits_copyString _ _ _)).andThen catsWrite

/-- The MLS fields. -/
theorem mls_walks {c : Context} (found : mlsText p c = .ok text) :
    mlsContextLen p c = .ok (textLen text) ∧ OutBuffer.Emits (mlsWriteContext p c) text := by
  unfold mlsText at found
  unfold mlsContextLen mlsWriteContext
  by_cases mls : p.mlsEnabled = true
  · rw [if_neg (not_not.mpr mls)] at found ⊢
    rw [if_neg (not_not.mpr mls)]
    cases lowWent : levelText p c.range.low with
    | error e =>
      rw [lowWent] at found
      cases found
    | ok low =>
      obtain ⟨lowLen, lowWrite⟩ := level_walks lowWent
      rw [lowWent] at found
      rw [lowLen]
      cases same : mlsLevelEq c.range.low c.range.high with
      | true =>
        rw [same] at found
        cases found
        constructor
        · refine congrArg Except.ok ?_
          rw [textLen_append, List.append_nil]
          rfl
        · exact (OutBuffer.emits_put _ _).andThen (lowWrite.andThen OutBuffer.emits_skip)
      | false =>
        rw [same] at found
        cases highWent : levelText p c.range.high with
        | error e =>
          rw [highWent] at found
          cases found
        | ok high =>
          obtain ⟨highLen, highWrite⟩ := level_walks highWent
          rw [highWent] at found
          cases found
          rw [highLen]
          constructor
          · refine congrArg Except.ok ?_
            rw [textLen_append, textLen_append, textLen_append]
            have first : textLen [colon] = 1 := rfl
            have second : textLen [dash] = 1 := rfl
            rw [first, second]
            ac_rfl
          · exact (OutBuffer.emits_put _ _).andThen (lowWrite.andThen
              ((OutBuffer.emits_put _ _).andThen highWrite))
  · rw [if_pos mls] at found ⊢
    rw [if_pos mls]
    cases found
    exact ⟨rfl, OutBuffer.emits_skip⟩

end Walks

section Named

variable {p : Policydb} {c : Context}

theorem close_named {head prev : U32}
    (named : prev ≠ head → ∃ name, symName p.symValToName.cats (prev + 1) = .ok name) :
    ∃ text, closeText p head prev = .ok text := by
  unfold closeText
  by_cases same : prev = head
  · rw [if_neg (not_not.mpr same)]
    exact ⟨_, rfl⟩
  · obtain ⟨name, found⟩ := named same
    rw [if_pos same, found]
    exact ⟨_, rfl⟩

/-- The last category seen has a name, unless none was seen. -/
theorem cats_named {bits : List U32} {head prev : U32}
    (last : prev ≠ head → ∃ name, symName p.symValToName.cats (prev + 1) = .ok name)
    (named : ∀ b ∈ bits, ∃ name, symName p.symValToName.cats (b + 1) = .ok name) :
    ∃ text, catsText p bits head prev = .ok text := by
  induction bits generalizing head prev with
  | nil => exact close_named last
  | cons i rest ih =>
    have here := named i List.mem_cons_self
    have later : ∀ b ∈ rest, ∃ name, symName p.symValToName.cats (b + 1) = .ok name :=
      fun b member => named b (List.mem_cons_of_mem i member)
    unfold catsText
    split
    · obtain ⟨close, closed⟩ := close_named last
      obtain ⟨name, found⟩ := here
      obtain ⟨text, went⟩ := ih (fun differs => absurd rfl differs) later
      rw [closed, found, went]
      exact ⟨_, rfl⟩
    · exact ih (fun _ => here) later

theorem level_named {l : MlsLevel}
    (sens : ∃ name, symName p.symValToName.levels l.sens = .ok name)
    (cats : ∀ b ∈ ebitmapPositiveBits l.cat, ∃ name, symName p.symValToName.cats (b + 1) = .ok name) :
    ∃ text, levelText p l = .ok text := by
  obtain ⟨name, found⟩ := sens
  obtain ⟨text, went⟩ := cats_named (p := p) (fun differs => absurd rfl differs) cats
  unfold levelText
  rw [found, went]
  exact ⟨_, rfl⟩

theorem mls_named (named : NamesInUse p c) : ∃ text, mlsText p c = .ok text := by
  unfold mlsText
  by_cases mls : p.mlsEnabled = true
  · have sens := named.sens mls
    have cats := named.cats mls
    obtain ⟨low, lowWent⟩ := level_named (sens c.range.low (by simp)) (cats c.range.low (by simp))
    obtain ⟨high, highWent⟩ := level_named (sens c.range.high (by simp))
      (cats c.range.high (by simp))
    rw [if_neg (not_not.mpr mls), lowWent, highWent]
    cases mlsLevelEq c.range.low c.range.high with
    | true => exact ⟨_, rfl⟩
    | false => exact ⟨_, rfl⟩
  · rw [if_pos mls]
    exact ⟨_, rfl⟩

end Named

section Agreement

variable {p : Policydb} {c : Context}

/-- A counter that no difference of two of them overflows. -/
def Countable (x : U32) : Prop := -2 ≤ x.toInt ∧ x.toInt < 2 ^ 31 - 2

end Agreement

/-- The size reported is that of the string with its terminator, and a buffer of that size
is filled with just these, whatever was in it: no write is outside. -/
def FitsExactly (p : Policydb) (c : Context) : Prop :=
  ∃ text size, contextText p c = .ok text ∧ size.toNat = text.length + 1 ∧
    contextStructToStringAlloc p c false none = .ok (size, none) ∧
    ∀ byte, contextStructToStringAlloc p c true (some byte) = .ok (size, some (text ++ [0]))

/-- The size computed, and the buffer filled, for a mapped context. -/
theorem mapped_fits {p : Policydb} {c : Context} {user role type : Name} {mls : List U8}
    (mapped : c.str = none) (userName : symName p.symValToName.users c.user = .ok user)
    (roleName : symName p.symValToName.roles c.role = .ok role)
    (typeName : symName p.symValToName.types c.type = .ok type) (mlsWent : mlsText p c = .ok mls)
    (small : (user ++ colon :: role ++ colon :: type ++ mls).length + 1 < 2 ^ 32) :
    FitsExactly p c := by
  obtain ⟨mlsLen, mlsWrite⟩ := mls_walks mlsWent
  generalize textEq : user ++ colon :: role ++ colon :: type ++ mls = text at small
  have size : contextStringSize p c = .ok (user, role, type, BitVec.ofNat 32 (text.length + 1)) := by
    unfold contextStringSize
    rw [userName, roleName, typeName, mlsLen]
    refine congrArg Except.ok ?_
    have sum : (nameLen user + 1) + (nameLen role + 1) + (nameLen type + 1) + textLen mls =
        BitVec.ofNat 32 (text.length + 1) := by
      have total : text.length + 1 = (user.length + 1) + (role.length + 1) + (type.length + 1) +
          mls.length := by
        rw [← textEq]
        simp only [List.length_append, List.length_cons]
        omega
      rw [total]
      simp only [BitVec.ofNat_add, nameLen, textLen]
      rfl
    rw [sum]
  have toNat : (BitVec.ofNat 32 (text.length + 1)).toNat = text.length + 1 := by
    rw [BitVec.toNat_ofNat, Nat.mod_eq_of_lt small]
  have string : contextText p c = .ok text := by
    unfold contextText
    rw [mapped]
    dsimp only
    rw [userName, roleName, typeName, mlsWent]
    exact congrArg Except.ok textEq
  refine ⟨text, BitVec.ofNat 32 (text.length + 1), string, toNat, ?_, fun byte => ?_⟩
  · unfold contextStructToStringAlloc contextStringAlloc
    rw [mapped]
    dsimp only
    rw [size]
    rfl
  · have emits : OutBuffer.Emits (OutBuffer.andThen (sprintfNames user role type)
        (mlsWriteContext p c)) text := by
      rw [← textEq]
      exact (OutBuffer.emits_copyString _ _ _).andThen mlsWrite
    let buffer : OutBuffer U8 :=
      { bytes := (List.range (BitVec.ofNat 32 (text.length + 1)).toNat).map byte, pos := 0 }
    have room : buffer.bytes.length = text.length + 1 := by
      rw [List.length_map, List.length_range, toNat]
    have start : buffer.pos = 0 := rfl
    obtain ⟨filled, wrote, done⟩ := emits buffer (by omega)
    have closes : ∃ closed, OutBuffer.putLast Fault.oops 0 filled = .ok closed ∧
        closed.bytes = text ++ [0] := done.closed start room
    obtain ⟨closed, wroteLast, bytes⟩ := closes
    have whole : contextStringWrite p c user role type buffer = .ok closed := by
      unfold contextStringWrite
      rw [OutBuffer.andThen_assoc]
      simp only [OutBuffer.andThen] at wrote ⊢
      rw [wrote]
      exact wroteLast
    unfold contextStructToStringAlloc contextStringAlloc
    rw [mapped]
    dsimp only
    rw [size]
    change (do
      let buffer ← contextStringWrite p c user role type buffer
      pure (BitVec.ofNat 32 (text.length + 1), some buffer.bytes)) = _
    rw [whole, ← bytes]
    rfl

/-- A context all of whose values have names, and whose string is one that 32 bits can
measure. -/
theorem context_fits (p : Policydb) (c : Context) (named : NamesInUse p c)
    (small : ∀ text, contextText p c = .ok text → text.length + 1 < 2 ^ 32) : FitsExactly p c := by
  cases mapped : c.str with
  | some str =>
    have string : contextText p c = .ok str := by rw [contextText, mapped]
    have len : c.len = str.length + 1 := by rw [Context.len, mapped]
    have toNat : (BitVec.ofNat 32 c.len).toNat = str.length + 1 := by
      rw [BitVec.toNat_ofNat, len, Nat.mod_eq_of_lt (small str string)]
    refine ⟨str, BitVec.ofNat 32 c.len, string, toNat, ?_, fun byte => ?_⟩
    · rw [contextStructToStringAlloc, mapped]
      rfl
    · rw [contextStructToStringAlloc, mapped]
      rfl
  | none =>
    obtain ⟨user, userName⟩ := named.user
    obtain ⟨role, roleName⟩ := named.role
    obtain ⟨type, typeName⟩ := named.type
    obtain ⟨mls, mlsWent⟩ := mls_named named
    apply mapped_fits mapped userName roleName typeName mlsWent
    apply small
    unfold contextText
    rw [mapped]
    dsimp only
    rw [userName, roleName, typeName, mlsWent]
    rfl

theorem wholeRange_text : contextText mlsPolicy wholeRange =
    .ok (cstr ['u', ':', 'r', ':', 't', ':', 's', '0', '-', 's', '0', ':', 'c', '0', ',', 'c', '1']) := by
  decide

theorem context_fits_runs : FitsExactly mlsPolicy wholeRange := by
  apply context_fits
  · constructor
    · exact ⟨_, rfl⟩
    · exact ⟨_, rfl⟩
    · exact ⟨_, rfl⟩
    · intro _ l member
      have sens : l.sens = 1 := by
        rcases List.mem_pair.mp member with rfl | rfl
        · rfl
        · rfl
      rw [sens]
      exact ⟨_, rfl⟩
    · intro _ l member b inside
      have low : ebitmapPositiveBits wholeRange.range.low.cat = [] := by decide
      have high : ebitmapPositiveBits wholeRange.range.high.cat = [0, 1] := by decide
      have bits : b = 0 ∨ b = 1 := by
        rcases List.mem_pair.mp member with rfl | rfl
        · rw [low] at inside
          cases inside
        · rw [high] at inside
          exact List.mem_pair.mp inside
      rcases bits with rfl | rfl
      · exact ⟨_, rfl⟩
      · exact ⟨_, rfl⟩
  · intro text string
    rw [wholeRange_text] at string
    cases string
    decide

/-- A policy without MLS whose user has a name of `count` letters. -/
def longUser (count : Nat) : Policydb :=
  { smallPolicy false ⟨s0 [], s0 []⟩ [] with
    symValToName := { (smallPolicy false ⟨s0 [], s0 []⟩ []).symValToName with
      users := [some (List.replicate count 97)] } }

def shortContext : Context := labelled 2 (s0 []) (s0 [])

/-- With a user name of 4 GiB the size wraps around. -/
theorem context_not_fits : ∃ p c, policydbContextIsvalid p c = .ok true ∧ NamesInUse p c ∧
    ¬ FitsExactly p c := by
  obtain ⟨count, long⟩ : ∃ count, count = 2 ^ 32 := ⟨_, rfl⟩
  refine ⟨longUser count, shortContext, ?_, ?_, ?_⟩
  · exact (show policydbContextIsvalid (smallPolicy false ⟨s0 [], s0 []⟩ []) shortContext = .ok true by
      decide)
  · constructor
    · exact ⟨_, rfl⟩
    · exact ⟨_, rfl⟩
    · exact ⟨_, rfl⟩
    · intro mls
      cases mls
    · intro mls
      cases mls
  · rintro ⟨text, size, string, fits, -⟩
    have written : contextText (longUser count) shortContext =
        .ok ((List.replicate count 97 ++ colon :: cstr ['r'] ++ colon :: cstr ['t']) ++ []) := rfl
    rw [written] at string
    cases string
    have bound := size.isLt
    simp only [List.length_append, List.length_replicate] at fits
    omega

end Ksrc.Guarantees.ContextBuffers

import Ksrc.Library.OutBuffer
import Ksrc.Source.ContextString

/-!
# Context strings in their buffer

Source: `security/selinux/ss/mls.c` (`mls_compute_context_len`, `mls_sid_to_context`),
`services.c` (`context_struct_to_string`).

The same functions with the integers and the memory of the machine: the counters `i`,
`head` and `prev` are 32-bit words read as signed numbers, lengths are added in 32 bits, and
every byte goes to a buffer of the size computed before. A write outside it is an `oops`.
-/
namespace Ksrc.Source

open Library

abbrev BufferWriter := OutBuffer.Writer Fault U8

/-- `*scontextp++ = c`. -/
def putByte (c : U8) : BufferWriter := OutBuffer.put .oops c

/-- `strcpy(scontextp, name); scontextp += strlen(name)`. -/
def putName (name : Name) : BufferWriter := OutBuffer.copyString .oops 0 name

/-- The value that `head` and `prev` have before the first category. -/
def noCategory : U32 := BitVec.ofInt 32 (-2)

/-- `i - prev > 1`. -/
def skipped (i prev : U32) : Bool := 1 < (i - prev).toInt

/-- `strlen` as it is added to an `int`. -/
def nameLen (name : Name) : U32 := BitVec.ofNat 32 name.length

section Lengths

variable (p : Policydb)

/-- The close of a run in `mls_compute_context_len`. -/
def mlsContextLenClose (head prev : U32) : Except Fault U32 :=
  if head ≠ prev then do
    let nm ← symName p.symValToName.cats (prev + 1)
    pure (nameLen nm + 1)
  else pure 0

/-- The loop over the categories in `mls_compute_context_len`. -/
def mlsContextLenCats : List U32 → U32 → U32 → Except Fault U32
  | [], head, prev => mlsContextLenClose p head prev
  | i :: rest, head, prev =>
    if skipped i prev then do
      let close ← mlsContextLenClose p head prev
      let nm ← symName p.symValToName.cats (i + 1)
      let later ← mlsContextLenCats rest i i
      pure (close + (nameLen nm + 1) + later)
    else mlsContextLenCats rest head i

def mlsContextLenLevel (l : MlsLevel) : Except Fault U32 := do
  let sens ← symName p.symValToName.levels l.sens
  let cats ← mlsContextLenCats p (ebitmapPositiveBits l.cat) noCategory noCategory
  pure (nameLen sens + cats)

/-- `mls_compute_context_len`. -/
def mlsContextLen (context : Context) : Except Fault U32 :=
  if ¬ p.mlsEnabled then .ok 0
  else do
    let low ← mlsContextLenLevel p context.range.low
    if mlsLevelEq context.range.low context.range.high then pure (1 + low)
    else do
      let high ← mlsContextLenLevel p context.range.high
      pure (1 + low + 1 + high)

end Lengths

section Writing

variable (p : Policydb)

def putCatName (value : U32) : BufferWriter :=
  OutBuffer.withValue (symName p.symValToName.cats value) putName

/-- The close of a run in `mls_sid_to_context`. -/
def mlsWriteClose (head prev : U32) : BufferWriter :=
  if prev ≠ head then
    OutBuffer.andThen (putByte (if skipped prev head then dot else comma)) (putCatName p (prev + 1))
  else OutBuffer.skip

/-- The loop over the categories in `mls_sid_to_context`. -/
def mlsWriteCats : List U32 → U32 → U32 → BufferWriter
  | [], head, prev => mlsWriteClose p head prev
  | i :: rest, head, prev =>
    if skipped i prev then
      OutBuffer.andThen (mlsWriteClose p head prev) <|
        OutBuffer.andThen (putByte (if prev.toInt < 0 then colon else comma)) <|
          OutBuffer.andThen (putCatName p (i + 1)) (mlsWriteCats rest i i)
    else mlsWriteCats rest head i

def mlsWriteLevel (l : MlsLevel) : BufferWriter :=
  OutBuffer.andThen (OutBuffer.withValue (symName p.symValToName.levels l.sens) putName)
    (mlsWriteCats p (ebitmapPositiveBits l.cat) noCategory noCategory)

/-- `mls_sid_to_context`. -/
def mlsWriteContext (context : Context) : BufferWriter :=
  if ¬ p.mlsEnabled then OutBuffer.skip
  else
    OutBuffer.andThen (putByte colon) <|
      OutBuffer.andThen (mlsWriteLevel p context.range.low) <|
        if mlsLevelEq context.range.low context.range.high then OutBuffer.skip
        else OutBuffer.andThen (putByte dash) (mlsWriteLevel p context.range.high)

/-- `sprintf(scontextp, "%s:%s:%s", ...)`, once its arguments are read. -/
def sprintfNames (user role type : Name) : BufferWriter :=
  putName (user ++ colon :: role ++ colon :: type)

/-- What `kmalloc` of a size gives: memory with anything in it, or none. -/
def kmallocBuffer (memory : Option (Nat → U8)) (size : U32) : Option (OutBuffer U8) :=
  memory.map fun byte => { bytes := (List.range size.toNat).map byte, pos := 0 }

/-- The names of `context_struct_to_string` and the size it computes from them. -/
def contextStringSize (context : Context) : Except Fault (Name × Name × Name × U32) := do
  let user ← symName p.symValToName.users context.user
  let role ← symName p.symValToName.roles context.role
  let type ← symName p.symValToName.types context.type
  let mlsLen ← mlsContextLen p context
  pure (user, role, type,
    (nameLen user + 1) + (nameLen role + 1) + (nameLen type + 1) + mlsLen)

/-- The writes of `context_struct_to_string` to its buffer. -/
def contextStringWrite (context : Context) (user role type : Name) : BufferWriter :=
  OutBuffer.andThen (sprintfNames user role type) <|
    OutBuffer.andThen (mlsWriteContext p context) (OutBuffer.putLast .oops 0)

/-- `context_struct_to_string` of a mapped context: the size it reports, and the buffer if
`scontext` is not `NULL`. -/
def contextStringAlloc (context : Context) (scontext : Bool) (memory : Option (Nat → U8)) :
    Except Fault (U32 × Option (List U8)) := do
  let (user, role, type, size) ← contextStringSize p context
  if ¬ scontext then pure (size, none)
  else
    match kmallocBuffer memory size with
    | none => .error (.err .ENOMEM)
    | some buffer => do
      let buffer ← contextStringWrite p context user role type buffer
      pure (size, some buffer.bytes)

/-- `context_struct_to_string`. -/
def contextStructToStringAlloc (context : Context) (scontext : Bool)
    (memory : Option (Nat → U8)) : Except Fault (U32 × Option (List U8)) :=
  match context.str with
  | some str =>
    if ¬ scontext then .ok (BitVec.ofNat 32 context.len, none)
    else
      -- `kstrdup`
      match memory with
      | none => .error (.err .ENOMEM)
      | some _ => .ok (BitVec.ofNat 32 context.len, some (str ++ [0]))
  | none => contextStringAlloc p context scontext memory

end Writing

end Ksrc.Source

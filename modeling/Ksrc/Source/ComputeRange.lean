import Ksrc.Source.ComputeSid

/-!
# The MLS range of a new object

Source: `security/selinux/ss/mls.c` (`mls_compute_sid`, `mls_range_set`), `context.h`
(`mls_context_cpy`, `mls_context_cpy_low`, `mls_context_cpy_high`, `mls_context_glblub`).

A range is made of two bitmaps, one after the other, and the allocations of either may fail. `specified`
is as wide as the source has it.
-/
namespace Ksrc.Source

/-- Which allocations succeed, for the bitmap of the low level and for that of the high one. -/
structure RangeAlloc where
  low : Nat → Bool
  high : Nat → Bool

/-- Every allocation succeeds. -/
def RangeAlloc.all : RangeAlloc where
  low _ := true
  high _ := true

section Copies

variable (alloc : RangeAlloc)

/-- The range of two levels whose bitmaps have been made, unless one failed. -/
def mlsRangeMake (lowSens highSens : U32) (low high : Option Errno × Ebitmap) :
    Except Fault MlsRange :=
  match low.1, high.1 with
  | some rc, _ => .error (.err rc)
  | none, some rc => .error (.err rc)
  | none, none => .ok { low := { sens := lowSens, cat := low.2 }, high := { sens := highSens, cat := high.2 } }

/-- The loop of `mls_range_set`. -/
def mlsRangeSet (range : MlsRange) : Except Fault MlsRange :=
  mlsRangeMake range.low.sens range.high.sens (ebitmapCpy alloc.low range.low.cat)
    (ebitmapCpy alloc.high range.high.cat)

/-- `mls_context_cpy`. -/
def mlsContextCpyAlloc (src : Context) : Except Fault MlsRange :=
  mlsRangeMake src.range.low.sens src.range.high.sens (ebitmapCpy alloc.low src.range.low.cat)
    (ebitmapCpy alloc.high src.range.high.cat)

/-- `mls_context_cpy_low`. -/
def mlsContextCpyLowAlloc (src : Context) : Except Fault MlsRange :=
  mlsRangeMake src.range.low.sens src.range.low.sens (ebitmapCpy alloc.low src.range.low.cat)
    (ebitmapCpy alloc.high src.range.low.cat)

/-- `mls_context_cpy_high`. -/
def mlsContextCpyHighAlloc (src : Context) : Except Fault MlsRange :=
  mlsRangeMake src.range.high.sens src.range.high.sens (ebitmapCpy alloc.low src.range.high.cat)
    (ebitmapCpy alloc.high src.range.high.cat)

/-- `mls_context_glblub`. -/
def mlsContextGlblubAlloc (c1 c2 : Context) : Except Fault MlsRange :=
  let r1 := c1.range
  let r2 := c2.range
  if r1.high.sens < r2.low.sens ∨ r2.high.sens < r1.low.sens then .error einval
  else mlsRangeMake
    (if r1.low.sens < r2.low.sens then r2.low.sens else r1.low.sens)
    (if r1.high.sens < r2.high.sens then r1.high.sens else r2.high.sens)
    (ebitmapAnd alloc.low r1.low.cat r2.low.cat) (ebitmapAnd alloc.high r1.high.cat r2.high.cat)

/-- The switch over `default_range` in `mls_compute_sid`; `none` falls through. -/
def mlsDefaultRangeAlloc (scontext tcontext : Context) (defaultRange : U8) :
    Option (Except Fault MlsRange) :=
  if defaultRange = defaultSourceLow then some (mlsContextCpyLowAlloc alloc scontext)
  else if defaultRange = defaultSourceHigh then some (mlsContextCpyHighAlloc alloc scontext)
  else if defaultRange = defaultSourceLowHigh then some (mlsContextCpyAlloc alloc scontext)
  else if defaultRange = defaultTargetLow then some (mlsContextCpyLowAlloc alloc tcontext)
  else if defaultRange = defaultTargetHigh then some (mlsContextCpyHighAlloc alloc tcontext)
  else if defaultRange = defaultTargetLowHigh then some (mlsContextCpyAlloc alloc tcontext)
  else if defaultRange = defaultGlblub then some (mlsContextGlblubAlloc alloc scontext tcontext)
  else none

end Copies

section Computing

variable (p : Policydb) (scontext tcontext : Context)

/-- `cladatum` of `mls_compute_sid`. -/
def mlsCladatum (tclass : U16) : Except Fault (Option ClassDatum) :=
  if tclass = 0 ∨ p.pClasses.nprim < tclass.zeroExtend 32 then .ok none
  else atValue p.classValToStruct (tclass.zeroExtend 32)

/-- The case of `AVTAB_CHANGE` in `mls_compute_sid`. -/
def mlsChangeRangeAlloc (alloc : RangeAlloc) (tclass : U16) (sock : Bool) : Except Fault MlsRange :=
  if tclass = p.processClass ∨ sock then mlsContextCpyAlloc alloc scontext
  else mlsContextCpyLowAlloc alloc scontext

/-- `mls_compute_sid`. -/
def mlsComputeSid (alloc : RangeAlloc) (tclass : U16) (specified : U32) (sock : Bool) :
    Except Fault MlsRange :=
  if ¬ p.mlsEnabled then .ok mlsRangeZero
  else if specified = avtabTransition.zeroExtend 32 then
    match policydbRangetrSearch p scontext tcontext tclass with
    | some r => mlsRangeSet alloc r
    | none => do
      let cladatum ← mlsCladatum p tclass
      match cladatum.bind fun c => mlsDefaultRangeAlloc alloc scontext tcontext c.defaultRange with
      | some r => r
      | none => mlsChangeRangeAlloc p scontext alloc tclass sock
  else if specified = avtabChange.zeroExtend 32 then mlsChangeRangeAlloc p scontext alloc tclass sock
  else if specified = avtabMember.zeroExtend 32 then mlsContextCpyLowAlloc alloc scontext
  else .error einval

end Computing

end Ksrc.Source

import Trampoline.CallShape

/-!
# Build errors

What can stop the making of stubs. Each error ends the whole batch that was being built.

* `BuildError.message`: the error in words;
* `BuildError.isExhaustion`: whether the machine had no more to give, rather than the batch being
  wrong.
-/

namespace Trampoline

/-- Why a stub or a batch of stubs could not be made. -/
inductive BuildError
  /-- No memory for the code. -/
  | outOfMemory (codeSize pages : Nat)
  /-- The code could not be made executable. -/
  | protection (reason : String)
  /-- The signature gets no stub on this platform or under these settings. -/
  | refused (stub : String) (reason : Refusal)
  /-- No register can carry a value of this type. -/
  | unsupportedType (stub : String) (type : ValueType)
  /-- A bank has fewer registers than the signature has arguments for it. -/
  | tooManyArguments (stub : String) (bank : Bank) (count limit : Nat)
  /-- Two stubs of one batch have the same name. -/
  | duplicate (stub : String)
  deriving DecidableEq

namespace BuildError

/-- The error in words. -/
def message : BuildError → String
  | outOfMemory codeSize pages =>
    s!"cannot allocate {pages} page(s) for {codeSize} bytes of stub code"
  | protection reason => s!"cannot make stub pages executable: {reason}"
  | refused stub reason => s!"stub `{stub}` is not eligible for compilation: {reason.message}"
  | unsupportedType stub type => s!"stub `{stub}`: type {type.name} has no register class"
  | tooManyArguments stub bank count limit =>
    s!"stub `{stub}`: {count} {bank.name} arguments exceed the limit of {limit}"
  | duplicate stub => s!"duplicate stub name `{stub}` in compilation unit"

/-- Whether the machine had no more to give. -/
def isExhaustion : BuildError → Bool
  | outOfMemory .. | protection _ => true
  | refused .. | unsupportedType .. | tooManyArguments .. | duplicate _ => false

end BuildError

end Trampoline

/-!
# Saved error codes

Each thread has one place where the system's error code of the latest native call is kept. A stub
that saves errors has it filled by a routine of this library, unless another routine is named.

* `ErrorCode.fresh`: what a thread starts with;
* `ErrorCode.save`, `ErrorCode.set`: the two ways to fill the place.
-/

namespace Trampoline

/-- The place of one thread: the error code it holds. -/
structure ErrorCode where
  code : BitVec 32
  deriving DecidableEq

namespace ErrorCode

/-- The place of a new thread: no error. -/
def fresh : ErrorCode := ⟨0⟩

/-- Keep the system's current error code. -/
def save (systemCode : BitVec 32) (_ : ErrorCode) : ErrorCode := ⟨systemCode⟩

/-- Put in a code of one's own. -/
def set (code : BitVec 32) (_ : ErrorCode) : ErrorCode := ⟨code⟩

end ErrorCode

end Trampoline

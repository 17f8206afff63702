import Trampoline.ValueType

/-!
# Signatures

What a native function takes and returns, and how it is called.

* `Signature.text`: the form for people, `(i8, wide long) -> f64`;
* `Signature.descriptor`: the form for dispatch, one letter a slot, `(BJ)D`.
-/

namespace Trampoline

/-- A calling convention. -/
inductive Convention
  | default
  | stdCall
  deriving DecidableEq

/-- The name of the convention. -/
def Convention.name : Convention → String
  | default => "Default"
  | stdCall => "StdCall"

/-- The type of a native function. -/
structure Signature where
  params : List Slot
  ret : Slot
  convention : Convention
  deriving DecidableEq

namespace Signature

/-- The parameters in parentheses, an arrow, and the type of the result. -/
def text (s : Signature) : String :=
  "(" ++ ", ".intercalate (s.params.map Slot.text) ++ ") -> " ++ s.ret.type.name

/-- The letters of the parameters in parentheses and the letter of the result. -/
def descriptorChars (p : Platform) (s : Signature) : List Char :=
  '(' :: s.params.map (Slot.letter p) ++ [')', s.ret.letter p]

/-- The descriptor under which the function is published for dispatch. -/
def descriptor (p : Platform) (s : Signature) : String :=
  String.ofList (s.descriptorChars p)

end Signature

end Trampoline

import Trampoline.CallShape.Verdict

/-!
# Descriptors of call shapes

A descriptor as a text about registers: the letters of a call shape, and the shape that a text stands for,
if it stands for one. No signature and no platform is needed to read it.

* `Carrier.letter`, `Return.letter`, `CallShape.descriptor`: how a shape is written;
* `Carrier.ofLetter?`, `Return.ofLetter?`, `CallShape.ofDescriptor?`: how it is read again;
* `Verdict.ofDescriptor?`: the verdict that a text stands for.
-/

namespace Trampoline

/-- The letter of a carrier. -/
def Carrier.letter : Carrier → Char
  | int .w8 => 'B'
  | int .w16 => 'S'
  | int .w32 => 'I'
  | int .w64 => 'J'
  | f32 => 'F'
  | f64 => 'D'

/-- The carrier that a letter stands for. -/
def Carrier.ofLetter? : Char → Option Carrier
  | 'B' => some (int .w8)
  | 'S' => some (int .w16)
  | 'I' => some (int .w32)
  | 'J' => some (int .w64)
  | 'F' => some f32
  | 'D' => some f64
  | _ => none

/-- The letter of a result. -/
def Return.letter : Return → Char
  | nothing => 'V'
  | value c => c.letter

/-- The result that a letter stands for. -/
def Return.ofLetter? (letter : Char) : Option Return :=
  if letter = 'V' then some .nothing else (Carrier.ofLetter? letter).map .value

/-- The result that one letter alone stands for. -/
def Return.ofLetters? : List Char → Option Return
  | [letter] => ofLetter? letter
  | _ => none

namespace CallShape

/-- What follows the opening parenthesis. -/
def lettersFrom (s : CallShape) : List Char := s.args.map Carrier.letter ++ [')', s.ret.letter]

/-- The letters of the arguments in parentheses and the letter of the result. -/
def descriptor (s : CallShape) : String := String.ofList ('(' :: s.lettersFrom)

/-- Read the letters of arguments up to the closing parenthesis, and the letter of the result behind it. -/
def readFrom? : List Char → Option CallShape
  | [] => none
  | letter :: rest =>
    if letter = ')' then
      (Return.ofLetters? rest).map (⟨[], ·⟩)
    else
      match Carrier.ofLetter? letter, readFrom? rest with
      | some c, some s => some ⟨c :: s.args, s.ret⟩
      | _, _ => none

/-- The call shape that a text stands for. -/
def ofDescriptor? (text : String) : Option CallShape :=
  match text.toList with
  | '(' :: rest => readFrom? rest
  | _ => none

end CallShape

/-- The verdict that a text stands for. -/
def Verdict.ofDescriptor? (text : String) : Option Verdict :=
  (CallShape.ofDescriptor? text).map CallShape.verdict

end Trampoline

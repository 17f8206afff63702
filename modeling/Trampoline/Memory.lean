import Trampoline.Scalar

/-!
# Native memory

A buffer laid out as native code on a platform expects it, and the cells whose values travel through
it.

* `Memory.stop?`, `Memory.read?`, `Memory.write?`: a range of bytes, if a word holds its end and it does not
  leave the buffer;
* `Memory.get`, `Memory.put`: access to one value, with the reason why it was refused;
* `Cell`: a value that native code gets by address, with `Cell.marshal` and `Cell.unmarshal`;
* `Memory.Step`, `Memory.step`, `Memory.run`: sequences of accesses.

An access gives what it leaves beside its answer: the memory when it writes, the cell when it reads one.
Unsupported sizes are refused before the range is looked at.
-/

namespace Trampoline

/-- A buffer as native code on a platform sees it. Words count its bytes. -/
@[ext]
structure Memory where
  platform : Platform
  bytes : Bytes
  length_lt : bytes.length < wordLimit

namespace Memory

/-- The number of bytes. -/
def size (m : Memory) : Nat := m.bytes.length

/-- The end of a range, if a word holds it and it is not behind the end of the buffer. -/
def stop? (m : Memory) (offset size : Nat) : Option Nat :=
  (checkedAdd? offset size).filter (· ≤ m.size)

/-- A buffer has fewer bytes than there are words, so the test of a range is that of its exact end. -/
theorem stop?_eq_some_iff {m : Memory} {offset size stop : Nat} :
    m.stop? offset size = some stop ↔ offset + size = stop ∧ stop ≤ m.size := by
  have hlt := m.length_lt
  unfold stop? checkedAdd? Memory.size
  constructor
  · intro h
    obtain ⟨hsum, hle⟩ := Option.filter_eq_some_iff.1 h
    split at hsum
    · exact ⟨Option.some.inj hsum, of_decide_eq_true hle⟩
    · cases hsum
  · rintro ⟨rfl, hle⟩
    rw [if_pos (Nat.lt_of_le_of_lt hle hlt)]
    exact Option.filter_eq_some_iff.2 ⟨rfl, decide_eq_true hle⟩

/-- The bytes of a range. -/
def read? (m : Memory) (offset size : Nat) : Option Bytes :=
  (m.stop? offset size).map fun stop => (m.bytes.take stop).drop offset

/-- The buffer with a range overwritten. -/
def write? (m : Memory) (offset : Nat) (new : Bytes) : Option Memory :=
  match h : m.stop? offset new.length with
  | none => none
  | some stop => some
    { m with
      bytes := m.bytes.take offset ++ new ++ m.bytes.drop stop
      length_lt := by
        have hlt := m.length_lt
        obtain ⟨rfl, hle⟩ := stop?_eq_some_iff.1 h
        unfold Memory.size at hle
        simp only [List.length_append, List.length_take, List.length_drop]
        omega }

/-- The value at an offset. -/
def get (m : Memory) (s : Scalar) (offset : Nat) : Except MarshalError s.Value :=
  match s.fieldSize m.platform with
  | .error e => .error e
  | .ok n =>
    match m.read? offset n with
    | none => .error (.outOfBounds offset n m.size)
    | some field => .ok (s.ofBytes field)

/-- Write a value at an offset. -/
def put (m : Memory) (s : Scalar) (offset : Nat) (v : s.Value) : Memory × Except MarshalError Unit :=
  match s.fieldSize m.platform with
  | .error e => (m, .error e)
  | .ok n =>
    match m.write? offset (s.toBytes n v) with
    | none => (m, .error (.outOfBounds offset n m.size))
    | some m' => (m', .ok ())

end Memory

/-- A value that native code gets by address. -/
structure Cell (s : Scalar) where
  held : s.Value
  deriving DecidableEq

namespace Cell

/-- A cell that holds zero. -/
def zero (s : Scalar) : Cell s := ⟨0⟩

/-- The cell of an address, which must not be null. -/
def ofAddress (a : Address) : Except MarshalError (Cell .address) :=
  if a.isNull then .error .nullAddress else .ok ⟨a⟩

/-- Write the cell's value at an offset of a buffer. -/
def marshal {s : Scalar} (c : Cell s) (m : Memory) (offset : Nat) : Memory × Except MarshalError Unit :=
  m.put s offset c.held

/-- Take the value that a buffer holds at an offset. -/
def unmarshal {s : Scalar} (c : Cell s) (m : Memory) (offset : Nat) : Cell s × Except MarshalError Unit :=
  match m.get s offset with
  | .ok v => (⟨v⟩, .ok ())
  | .error e => (c, .error e)

end Cell

namespace Memory

/-- One access. -/
inductive Step
  | get (s : Scalar) (offset : Nat)
  | put (s : Scalar) (offset : Nat) (v : s.Value)
  /-- Write the value of a cell. -/
  | marshal (s : Scalar) (offset : Nat) (cell : Cell s)
  /-- Read the value of a cell. -/
  | unmarshal (s : Scalar) (offset : Nat) (cell : Cell s)

/-- What an access answers. -/
inductive Answer
  | value (s : Scalar) (v : s.Value)
  | done
  /-- The cell after the access, and the bytes its value takes on the platform. -/
  | cell (s : Scalar) (size : Nat) (cell : Cell s) (error : Option MarshalError)
  | error (e : MarshalError)

/-- What was wrong with an access, if anything was. -/
def fault? : Except MarshalError Unit → Option MarshalError
  | .ok () => none
  | .error e => some e

/-- Carry out one access. -/
def step (m : Memory) : Step → Memory × Answer
  | .get s offset =>
    match m.get s offset with
    | .ok v => (m, .value s v)
    | .error e => (m, .error e)
  | .put s offset v =>
    let (m', answer) := m.put s offset v
    (m', (fault? answer).elim .done .error)
  | .marshal s offset c =>
    let (m', answer) := c.marshal m offset
    (m', .cell s (s.size m.platform) c (fault? answer))
  | .unmarshal s offset c =>
    let (c', answer) := c.unmarshal m offset
    (m, .cell s (s.size m.platform) c' (fault? answer))

/-- Carry out a sequence of accesses; each answer stands beside the memory after it. -/
def run (m : Memory) : List Step → List (Memory × Answer)
  | [] => []
  | s :: rest =>
    let r := m.step s
    r :: run r.1 rest

end Memory

end Trampoline

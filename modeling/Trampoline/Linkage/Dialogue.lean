import Trampoline.Linkage

/-!
# Dialogues with a compiler

What a compiler can be asked, and all that can be seen of what it does.

* `Receiver.Offer`, `Receiver.recording`: a receiver that keeps a record of what it is offered;
* `Compiler.Question`, `Compiler.Reply`: what can be asked, and what can be seen;
* `Compiler.ask`, `Compiler.replies`: one question, and a sequence of them;
* `Compiler.Question.refused`: what is seen of a compiler that refuses everything for one reason.

A compiler keeps nothing of the linkage and the receivers that it is used with, so each attachment of a
sequence comes with its own: those that the attachment before has left, or others.
-/

namespace Trampoline

namespace Receiver

/-- A method that was offered, with the region of its code, the regions that lived, and the answer. -/
structure Offer where
  arena : Arena
  method : Method
  region : RegionId
  answer : Except Rejection Unit

/-- The receiver with a record of its offers, in order. -/
def recording {σ : Type} (r : Receiver σ) : Receiver (σ × List Offer) :=
  ⟨fun a (s, offers) m region =>
    let (s', answer) := r.bind a s m region
    ((s', offers ++ [⟨a, m, region, answer⟩]), answer)⟩

end Receiver

namespace Compiler

/-- What a compiler can be asked. -/
inductive Question : Type 1
  | callShape (s : Signature)
  | accepts (s : Signature)
  | compile (r : Request)
  | pending
  | attach {σ : Type} (l : Linkage) (sys : System) (receiver : Receiver σ) (s : σ)

/-- What can be seen of a compiler that was asked. Of an attachment this is the linkage that it leaves,
what the receiver is then, what it was offered, and the unit. -/
inductive Reply : Type 1
  | callShape (answer : Except Refusal CallShape)
  | accepts (answer : Bool)
  | compiled (answer : Except BuildError Unit)
  | pending (stubs : List Stub)
  | attached {σ : Type} (l : Linkage) (s : σ) (offers : List Receiver.Offer)
    (answer : Except CommitFailure (Option LinkedUnit))

/-- Ask a compiler one question. -/
def ask (c : Compiler) : Question → Compiler × Reply
  | .callShape s => (c, .callShape (c.callShape s))
  | .accepts s => (c, .accepts (c.accepts s))
  | .compile r =>
    let (c', answer) := c.compile r
    (c', .compiled answer)
  | .pending => (c, .pending c.pending)
  | .attach l sys receiver s =>
    let done := l.attach sys c receiver.recording (s, [])
    (done.compiler, .attached done.linkage done.receiver.1 done.receiver.2 done.answer)

/-- Ask a compiler one question after the other. -/
def replies (c : Compiler) : List Question → List Reply
  | [] => []
  | q :: rest =>
    let (c', reply) := c.ask q
    reply :: replies c' rest

/-- What is seen of a compiler that refuses everything for one reason. It never has anything to attach, so
it offers nothing and changes nothing. -/
def Question.refused (reason : Refusal) : Question → Reply
  | callShape _ => .callShape (.error reason)
  | accepts _ => .accepts false
  | compile r => .compiled (.error (.refused r.name reason))
  | pending => .pending []
  | attach l _ _ s => .attached l s [] (.ok none)

end Compiler

end Trampoline

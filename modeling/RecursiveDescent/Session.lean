import RecursiveDescent.Grammar.Parser

/-!
# Sessions

A session drives one reader by commands. It keeps positions and readers under names, and the last
failure. A fault ends it. Its movements count in machine words, if no other limit is given; the
parsers that it runs count without a limit.
-/
namespace RecursiveDescent

inductive Session.Command where
  | take (n : Nat)
  | takeBytes (n : Nat)
  | nextLine
  | peek
  | remaining
  | input
  | currentLine
  | atEnd
  | lineIndex
  | lineStarts
  | position
  | save (slot : String)
  | rewind (slot : String)
  | rewindTo (p : Position)
  | fork (slot : String)
  | swap (slot : String)
  | parse (name : String)
  | failHere (message expected found : String)
  | failAtEnd (message expected : String)
  /-- Fails with the last failure as the cause. -/
  | enclose (message : String)
  | expectInstead (expected : String)
  | caretLines
deriving DecidableEq

inductive Session.Reply where
  | nothing
  | taken (text : Text) (span : Span)
  | char (c : Char)
  | text (t : Text)
  | lines (s : String)
  | flag (b : Bool)
  | number (n : Nat)
  | numbers (ns : List Nat)
  | position (p : Position)
  | matched (m : Match Value)
  | failed (f : Failure)

structure Session where
  state : State
  saved : List (String × Position)
  forks : List (String × Reader)
  last : Option Failure

namespace Session

def start (r : Reader) : Session :=
  ⟨⟨r, Store.empty⟩, [], [], none⟩

def reader (s : Session) : Reader :=
  s.state.reader

def withReader (s : Session) (r : Reader) : Session :=
  { s with state := { s.state with reader := r } }

/-- The session after a run; what the run fails with becomes the last failure. -/
def act (s : Session) (run : Run Reply) : Except Halt Reply × Session :=
  match run s.state with
  | .ok reply state => (.ok reply, { s with state })
  | .failed f state => (.ok (.failed f), { s with state, last := some f })
  | .halted cause state => (.error cause, { s with state })

/-- A reply that changes nothing. -/
def tell (s : Session) (reply : Reply) : Except Halt Reply × Session :=
  (.ok reply, s)

def takenReply : Option (Text × Span) → Reply
  | some (text, span) => .taken text span
  | none => .nothing

/-- No answer, and no such slot, is no reply. -/
def replyIf {α : Type} (reply : α → Reply) : Option α → Reply
  | some a => reply a
  | none => .nothing

/-- The grammars of a session are the branches of one root. -/
def grammar? (name : String) : Nat → List (String × Grammar) → Option (NodeId × Grammar)
  | _, [] => none
  | i, (other, g) :: rest => if name = other then some ([i], g) else grammar? name (i + 1) rest

def perform (grammars : List (String × Grammar)) (limit : Limit) (s : Session) :
    Command → Except Halt Reply × Session
  | .take n => s.act (takenReply <$> Run.advance (·.takeIn limit n))
  | .takeBytes n => s.act (takenReply <$> Run.advance (·.takeBytesIn limit n))
  | .nextLine =>
    match s.reader.nextLineIn limit with
    | .ok (some r) => (.ok (.flag true), s.withReader r)
    | .ok none => s.tell (.flag false)
    | .error f => (.error (.fault f), s)
  | .peek => s.tell (replyIf .char s.reader.peek?)
  | .remaining => s.tell (.text s.reader.remaining)
  | .input => s.tell (.text s.reader.input)
  | .currentLine => s.tell (.text s.reader.currentLine)
  | .atEnd => s.tell (.flag s.reader.atEnd)
  | .lineIndex => s.tell (replyIf .number s.reader.lineIndex?)
  | .lineStarts => s.tell (.numbers s.reader.input.lineStarts)
  | .position => s.tell (.position s.reader.position)
  | .save slot => (.ok .nothing, { s with saved := (slot, s.reader.position) :: s.saved })
  | .rewind slot =>
    match s.saved.lookup slot with
    | some p => s.act ((fun _ => .nothing) <$> Run.rewind p)
    | none => s.tell .nothing
  | .rewindTo p => s.act ((fun _ => .nothing) <$> Run.rewind p)
  | .fork slot => (.ok .nothing, { s with forks := (slot, s.reader) :: s.forks })
  | .swap slot =>
    match s.forks.lookup slot with
    | some r => (.ok .nothing, { s.withReader r with forks := (slot, s.reader) :: s.forks })
    | none => s.tell .nothing
  | .parse name =>
    match grammar? name 0 grammars with
    | some (root, g) => s.act (.matched <$> (g.toParser root).run)
    | none => s.tell .nothing
  | .failHere message expected found => s.act (Run.failHere message expected found)
  | .failAtEnd message expected => s.act (Run.failAtEnd message expected)
  | .enclose message =>
    match s.last with
    | some cause => s.act (Run.fail (cause.enclose message s.reader))
    | none => s.tell .nothing
  | .expectInstead expected =>
    match s.last with
    | some f => s.act (Run.fail (f.withExpected expected))
    | none => s.tell .nothing
  | .caretLines => s.tell (replyIf (fun f => .lines f.top.caretLines) s.last)

/-- Each reply with the position after it, up to the first fault, and the session at the end. -/
def performAll (grammars : List (String × Grammar)) (s : Session) (commands : List Command)
    (limit : Limit := Limit.word) : List (Except Halt Reply × Position) × Session :=
  match commands with
  | [] => ([], s)
  | command :: rest =>
    match s.perform grammars limit command with
    | (.error cause, s') => ([(.error cause, s'.reader.position)], s')
    | (.ok reply, s') =>
      let (replies, final) := performAll grammars s' rest limit
      ((.ok reply, s'.reader.position) :: replies, final)

end Session

end RecursiveDescent

import ThreeAddress.Analysis
import ThreeAddress.Code.Basic
import ThreeAddress.Text.Quoted
import ThreeAddress.Token.Segment

/-!
# The log of a compilation

What happens in a compilation, event by event, and how a log shows it.
-/

namespace ThreeAddress

inductive Level
  | debug
  | trace
deriving Repr, DecidableEq

def Level.label : Level → String
  | debug => "DEBUG"
  | trace => "TRACE"

inductive Event
  | token (t : Token)
  | skipped (line : Nat) (c : Char)
  | lexed (tokens : Nat)
  | parsed (statements : Nat)
  | declared (name : String) (ty : Ty) (value : Value)
  | assigned (name : String) (value : Value)
  | analyzed (symbols : Nat)
  | emitted (i : Instr)
  | generated (instructions temporaries : Nat)
deriving Repr, DecidableEq

namespace Event

def level : Event → Level
  | token _ | skipped _ _ | emitted _ => .trace
  | _ => .debug

def message : Event → String
  | token t => "line " ++ Nat.repr t.line ++ ": " ++ t.render
  | skipped line c => "line " ++ Nat.repr line ++ ": skipping " ++ Text.quotedChar c
  | lexed n => "lexed " ++ Nat.repr n ++ " tokens"
  | parsed n => "parsed " ++ Nat.repr n ++ " statements"
  | declared name ty value =>
    "declare " ++ name ++ ": " ++ ty.keyword ++ " = " ++ value.render
  | assigned name value => "assign " ++ name ++ " = " ++ value.render
  | analyzed n => "analysis ok, " ++ Nat.repr n ++ " symbols"
  | emitted i => "emit: " ++ i.render
  | generated i t =>
    "generated " ++ Nat.repr i ++ " instructions using " ++ Nat.repr t ++ " temporaries"

/-- The event of scanning a segment; blanks are skipped in silence. -/
def ofSegment? (line : Nat) : Segment → Option Event
  | .lexeme kind text => some (token ⟨kind, String.ofList text, line⟩)
  | .skipped c => if Text.isBlank c then none else some (skipped line c)

def ofEffect? : Effect → Option Event
  | .declare name ty value => some (declared name ty value)
  | .assign name value => some (assigned name value)
  | .keep => none

end Event

end ThreeAddress

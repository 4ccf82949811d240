import ThreeAddress.Error
import ThreeAddress.Program.Reading

/-!
# Positions in a list of tokens

A cursor is a place in a list of tokens. Parsing from it ends at the end of the tokens, or fails
and stays at the offending token, with everything before it read; so parsing can be tried again
from there.
-/

namespace ThreeAddress

/-- A place in a list of tokens: how many stand before it, and those that follow. -/
structure Cursor where
  pos : Nat
  rest : List Token
deriving Repr, DecidableEq

namespace Cursor

def start (ts : List Token) : Cursor := ⟨0, ts⟩

/-- Where the cursor is when the tokens `rest`, an end of those at the cursor, remain. -/
def advanceTo (c : Cursor) (rest : List Token) : Cursor :=
  ⟨c.pos + (c.rest.length - rest.length), rest⟩

/-- The error of a reader that expected something at the cursor. -/
def error (c : Cursor) (expected : Expected) : SyntaxError :=
  ⟨c.pos, c.rest.head?, expected.message⟩

/-- Parses the tokens at the cursor, and where the cursor is then. -/
def parse (c : Cursor) : Except SyntaxError Program × Cursor :=
  match readStatements c.rest with
  | .ok stmts => (.ok ⟨stmts⟩, c.advanceTo [])
  | .error f => (.error ((c.advanceTo f.rest).error f.expected), c.advanceTo f.rest)

/-- The results of parsing `n` times, each time from where the last one stopped. -/
def parses (c : Cursor) : Nat → List (Except SyntaxError Program)
  | 0 => []
  | n + 1 => c.parse.1 :: c.parse.2.parses n

end Cursor

/-- The program that a list of tokens is. -/
def parse (ts : List Token) : Except SyntaxError Program :=
  (Cursor.start ts).parse.1

end ThreeAddress

import ThreeAddress.Command.File
import ThreeAddress.Command.Options
import ThreeAddress.Compile

/-!
# Running the command

What the command writes and the code it ends with, as a function of its arguments, of what files
hold and of the standard input. Without a file, lines are taken from the standard input up to the
first that is blank; each keeps its ending and they are joined by line feeds, so the second line
of the input is the third of the source.
-/

namespace ThreeAddress

/-- What the command writes, and its exit code. -/
structure Outcome where
  stdout : String
  stderr : String
  code : Nat
deriving Repr, DecidableEq

namespace Outcome

def success (output : String) : Outcome := ⟨output, "", 0⟩

def failure (message : String) : Outcome := ⟨"", message ++ "\n", 1⟩

def unreadable (file : String) (e : ReadError) : Outcome :=
  failure ("Error: reading " ++ Text.quotedName file ++ "\n\nCaused by:\n    " ++ e.message)

end Outcome

/-- The source that the standard input gives. -/
def promptedSource (stdin : String) : String :=
  let typed := (Text.rawLines stdin.toList).takeWhile fun line => !line.all Text.isBlank
  String.intercalate "\n" (typed.map String.ofList)

/-- A token in the list of tokens: the number of its line in a column, then the token. -/
def Token.listed (t : Token) : String :=
  Text.column t.line ++ ": " ++ t.render

/-- A part of the output under its heading, if it is asked for. -/
def Options.part (o : Options) (flag : Flag) (heading content : String) : String :=
  if o.shows flag then heading ++ "\n" ++ content else ""

/-- The output of a compilation: the parts asked for, and always the code. -/
def Options.output (o : Options) (c : Compilation) : String :=
  o.part .tokens "== Tokens" (Text.unlines (c.tokens.map Token.listed)) ++
    o.part .ast "== AST" c.program.tree ++
    ("== Intermediate code\n" ++ Text.unlines c.codeLines) ++
    o.part .symbols "== Symbols" c.symbols.render

def Options.compile (o : Options) (source : String) : Outcome :=
  match ThreeAddress.compile source with
  | .ok c => .success (o.output c)
  | .error e => .failure (e.report source)

/-- Runs the command with these options, where `files` gives what each file holds. -/
def Options.execute (o : Options) (files : String → Except ReadError ByteArray)
    (stdin : String) : Outcome :=
  match o.file with
  | none => o.compile (promptedSource stdin)
  | some file =>
    match (files file).bind decodeText with
    | .ok source => o.compile source
    | .error e => .unreadable file e

end ThreeAddress

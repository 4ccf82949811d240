/-!
# Arguments of the command

The command takes at most one file and the flags `--tokens`, `--ast` and `--symbols`, each at most
once, in any order. Behind the first `--` every argument is a file. What stands behind `=` in a
long flag is ignored.
-/

namespace ThreeAddress

/-- The parts of the output that are shown on request. -/
inductive Flag
  | tokens
  | ast
  | symbols
deriving Repr, DecidableEq

inductive UsageError
  | unknownArgument
  | repeatedFlag
  | helpRequested
  | versionRequested
deriving Repr, DecidableEq

structure Options where
  file : Option String
  flags : List Flag
deriving Repr, DecidableEq

def Options.shows (o : Options) (flag : Flag) : Bool :=
  o.flags.contains flag

/-! ### Single arguments -/

/-- An argument in front of `--`. -/
inductive Argument
  | flag (f : Flag)
  | file (name : String)
  | terminator
  | refused (e : UsageError)
deriving Repr, DecidableEq

namespace Argument

def ofLongName (name : List Char) : Argument :=
  match String.ofList name with
  | "tokens" => flag .tokens
  | "ast" => flag .ast
  | "symbols" => flag .symbols
  | "help" => refused .helpRequested
  | "version" => refused .versionRequested
  | _ => refused .unknownArgument

def ofLetter (c : Char) : Argument :=
  match c with
  | 'h' => refused .helpRequested
  | 'V' => refused .versionRequested
  | _ => refused .unknownArgument

/-- What an argument in front of `--` is: a long flag after two hyphens or more, a short one after
one hyphen, and a file otherwise. One hyphen alone is a file. -/
def classify (arg : String) : Argument :=
  match arg.toList with
  | ['-', '-'] => terminator
  | '-' :: '-' :: name => ofLongName ((name.dropWhile (· == '-')).takeWhile (· != '='))
  | '-' :: letter :: _ => ofLetter letter
  | _ => file arg

end Argument

/-! ### All arguments -/

namespace Options

def bare : Options := ⟨none, []⟩

/-- Adds a flag, also one that is there already. -/
def addFlag (o : Options) (f : Flag) : Options :=
  { o with flags := o.flags ++ [f] }

/-- Adds the file; there is at most one. -/
def addFile (o : Options) (name : String) : Except UsageError Options :=
  match o.file with
  | none => .ok { o with file := some name }
  | some _ => .error .unknownArgument

/-- Adds arguments that are files whatever they look like. -/
def addFiles (o : Options) (names : List String) : Except UsageError Options :=
  names.foldlM addFile o

/-- Adds arguments up to the first that is refused. -/
def collect (o : Options) : List String → Except UsageError Options
  | [] => .ok o
  | arg :: args =>
    match Argument.classify arg with
    | .flag f => (o.addFlag f).collect args
    | .file name => (o.addFile name).bind fun o => o.collect args
    | .terminator => o.addFiles args
    | .refused e => .error e

/-- The options that the arguments give. A flag given twice counts as a fault only where there is
no other. -/
def ofArguments (args : List String) : Except UsageError Options :=
  (bare.collect args).bind fun o =>
    if o.flags.Nodup then .ok o else .error .repeatedFlag

end Options

end ThreeAddress

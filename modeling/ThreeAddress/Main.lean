import ThreeAddress.Command.Execute

/-!
# The command

Reads the arguments, the file or the standard input, and writes what `Options.execute` says.
-/

namespace ThreeAddress

/-- The number of a system error, which arrives as it is or negated. -/
def systemError (code : UInt32) : UInt32 :=
  if code < 0 - code then code else 0 - code

def readBytes (file : String) : IO (Except ReadError ByteArray) := do
  try
    return .ok (← IO.FS.readBinFile file)
  catch e =>
    match e with
    | .noFileOrDirectory .. => return .error .notFound
    | .permissionDenied .. => return .error .denied
    | .inappropriateType _ code _ =>
      return .error (if systemError code = 20 then .notDirectory else .isDirectory)
    | .invalidArgument _ code details =>
      return .error (if systemError code = 36 then .nameTooLong else .failed details)
    | e => return .error (.failed (toString e))

/-- Reads lines up to a blank one or the end of the input. -/
partial def readPrompt (input : IO.FS.Stream) (typed : String) : IO String := do
  let line ← try input.getLine catch _ => pure ""
  if line.toList.all Text.isBlank then return typed
  readPrompt input (typed ++ line)

def UsageError.notice : UsageError → String
  | unknownArgument => "error: unknown argument"
  | repeatedFlag => "error: a flag is given twice"
  | helpRequested => "usage: three-address [--tokens] [--ast] [--symbols] [FILE_NAME]"
  | versionRequested => "three-address"

end ThreeAddress

open ThreeAddress in
def main (args : List String) : IO UInt32 := do
  match Options.ofArguments args with
  | .error e =>
    IO.eprintln e.notice
    return if e = .helpRequested ∨ e = .versionRequested then 0 else 1
  | .ok options =>
    let mut stdin := ""
    let mut contents := .error .notFound
    match options.file with
    | some file => contents ← readBytes file
    | none => stdin ← readPrompt (← IO.getStdin) ""
    let outcome := options.execute (fun _ => contents) stdin
    IO.print outcome.stdout
    IO.eprint outcome.stderr
    return outcome.code.toUInt32

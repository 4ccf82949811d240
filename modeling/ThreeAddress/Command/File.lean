/-!
# Files

What a path leads to in a directory of files, and the text that the bytes of a file encode. A path
is followed name by name, and the first name that leads nowhere decides the error; only a path
that is too long as a whole is refused before that.
-/

namespace ThreeAddress

/-- Why a file is not read as text. -/
inductive ReadError
  | notFound
  | denied
  | notDirectory
  | isDirectory
  | nameTooLong
  | notText
  | failed (reason : String)
deriving Repr, DecidableEq

def ReadError.message : ReadError → String
  | notFound => "No such file or directory (os error 2)"
  | denied => "Permission denied (os error 13)"
  | notDirectory => "Not a directory (os error 20)"
  | isDirectory => "Is a directory (os error 21)"
  | nameTooLong => "File name too long (os error 36)"
  | notText => "stream did not contain valid UTF-8"
  | failed reason => reason

/-- The text that the bytes of a file encode. -/
def decodeText (bytes : ByteArray) : Except ReadError String :=
  match String.fromUTF8? bytes with
  | some text => .ok text
  | none => .error .notText

/-! ### Paths -/

/-- The number of bytes that a name in a path can have. -/
def maxName : Nat := 255

/-- The number of bytes that a path can have. -/
def maxPath : Nat := 4095

/-- A directory that holds only files. -/
structure Directory where
  files : List (String × ByteArray)

/-- Where a path has led so far: to the directory, to one of its files, or out of the directory,
where nothing but directories is known. -/
inductive Place
  | inside
  | outside
  | file (bytes : ByteArray)

namespace Directory

/-- Where the next name of a path leads. -/
def enter (d : Directory) (place : Place) (name : String) : Except ReadError Place :=
  match place with
  | .file _ => .error .notDirectory
  | place =>
    if name = "" ∨ name = "." then .ok place
    else if name = ".." then .ok .outside
    else if name.utf8ByteSize > maxName then .error .nameTooLong
    else
      match place, d.files.lookup name with
      | .inside, some bytes => .ok (.file bytes)
      | _, _ => .error .notFound

/-- Follows a path from the directory, or from outside if it starts with a slash. -/
def follow (d : Directory) (path : List Char) : Except ReadError Place :=
  let start := if path.head? = some '/' then Place.outside else .inside
  ((path.splitOn '/').map String.ofList).foldlM d.enter start

/-- The bytes of the file that a path leads to. -/
def read (d : Directory) (path : String) : Except ReadError ByteArray :=
  if path = "" then .error .notFound
  else if path.utf8ByteSize > maxPath then .error .nameTooLong
  else
    (d.follow path.toList).bind fun
      | .file bytes => .ok bytes
      | _ => .error .isDirectory

end Directory

end ThreeAddress

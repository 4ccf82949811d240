import ThreeAddress.Text.Blank

/-!
# Lines of a text

A text is a sequence of lines, each ended by a line feed or by the end of the text. `rawLines`
keeps the endings, so its pieces join back to the text (`flatten_rawLines`); `lines` strips each
ending, a line feed together with one carriage return directly before it. A carriage return that
no line feed follows belongs to its line.
-/

namespace ThreeAddress.Text

/-- Puts a character in front of a text given by its lines. -/
def consLine (c : Char) (lines : List (List Char)) : List (List Char) :=
  if c = '\n' then ['\n'] :: lines
  else
    match lines with
    | [] => [[c]]
    | line :: rest => (c :: line) :: rest

/-- The lines of a text, each with its ending. -/
def rawLines (s : List Char) : List (List Char) :=
  s.foldr consLine []

@[simp] theorem rawLines_nil : rawLines [] = [] := rfl

theorem rawLines_cons (c : Char) (s : List Char) :
    rawLines (c :: s) = consLine c (rawLines s) := rfl

@[simp] theorem flatten_consLine (c : Char) (lines : List (List Char)) :
    (consLine c lines).flatten = c :: lines.flatten := by
  unfold consLine
  split
  · next h => simp [h]
  · split <;> simp

/-- Nothing is lost: the lines with their endings join back to the text. -/
@[simp] theorem flatten_rawLines (s : List Char) : (rawLines s).flatten = s := by
  induction s with
  | nil => rfl
  | cons c s ih => rw [rawLines_cons, flatten_consLine, ih]

def stripEnding (line : List Char) : List Char :=
  match line.reverse with
  | '\n' :: '\r' :: rest => rest.reverse
  | '\n' :: rest => rest.reverse
  | _ => line

/-- The lines of a text without their endings. -/
def lines (s : List Char) : List (List Char) :=
  (rawLines s).map stripEnding

/-- The lines as one text, each ended by a line feed. -/
def unlines (lines : List String) : String :=
  String.join (lines.map (· ++ "\n"))

/-- A number set flush right in four columns; a longer one is written in full. -/
def column (n : Nat) : String :=
  String.ofList ((Nat.repr n).toList.leftpad 4 ' ')

end ThreeAddress.Text

import ThreeAddress.Text.Line
import ThreeAddress.Token.Basic

/-!
# Scanning a text into tokens

Each line is cut, from left to right, into segments: lexemes, each as long as possible, and single
characters that start no lexeme and are skipped. Scanning never fails and loses nothing: the
segments of a line join back to it (`flatMap_chars_scanLine`).
-/

namespace ThreeAddress

/-- A piece of a line: a lexeme with its category, or one character that is skipped. -/
inductive Segment
  | lexeme (kind : Token.Kind) (text : List Char)
  | skipped (c : Char)
deriving Repr, DecidableEq

namespace Segment

/-- The characters of the line that the segment covers. -/
def chars : Segment → List Char
  | lexeme _ text => text
  | skipped c => [c]

/-- The token on line `line` that a lexeme gives. -/
def token? (line : Nat) : Segment → Option Token
  | lexeme kind text => some ⟨kind, String.ofList text, line⟩
  | skipped _ => none

end Segment

/-! ### Character classes -/

/-- A letter of ASCII or the low line. -/
def isWordStart (c : Char) : Bool :=
  c.isAlpha || c == '_'

/-- A letter or digit of ASCII or the low line. -/
def isWordPart (c : Char) : Bool :=
  c.isAlphanum || c == '_'

/-- The category of a character that is a lexeme by itself. -/
def punctuation? (c : Char) : Option Token.Kind :=
  if c = '=' then some .assignment
  else if c = '+' ∨ c = '-' ∨ c = '*' ∨ c = '/' then some .operator
  else if c = ';' ∨ c = '(' ∨ c = ')' then some .separator
  else none

/-! ### One segment -/

/-- The words that are keywords and not identifiers. -/
def keywords : List String :=
  ["int", "float", "print"]

def wordKind (word : List Char) : Token.Kind :=
  if String.ofList word ∈ keywords then .keyword else .identifier

/-- The segment that a number starts, given its leading digits and what follows them: a point
belongs to the number only if a digit stands behind it. -/
def numberSegment (digits : List Char) : List Char → Segment × List Char
  | '.' :: d :: rest =>
    if d.isDigit then
      (.lexeme .floatNumber (digits ++ '.' :: d :: rest.takeWhile Char.isDigit),
        rest.dropWhile Char.isDigit)
    else (.lexeme .number digits, '.' :: d :: rest)
  | rest => (.lexeme .number digits, rest)

/-- The first segment of the line `c :: cs` and what follows it. -/
def firstSegment (c : Char) (cs : List Char) : Segment × List Char :=
  if isWordStart c then
    let word := c :: cs.takeWhile isWordPart
    (.lexeme (wordKind word) word, cs.dropWhile isWordPart)
  else if c.isDigit then
    numberSegment (c :: cs.takeWhile Char.isDigit) (cs.dropWhile Char.isDigit)
  else
    match punctuation? c with
    | some kind => (.lexeme kind [c], cs)
    | none => (.skipped c, cs)

theorem chars_numberSegment (digits rest : List Char) :
    (numberSegment digits rest).1.chars ++ (numberSegment digits rest).2 = digits ++ rest := by
  unfold numberSegment
  split
  · split <;> simp [Segment.chars, List.takeWhile_append_dropWhile]
  · rfl

theorem chars_firstSegment (c : Char) (cs : List Char) :
    (firstSegment c cs).1.chars ++ (firstSegment c cs).2 = c :: cs := by
  unfold firstSegment
  split
  · simp [Segment.chars, List.takeWhile_append_dropWhile]
  · split
    · rw [chars_numberSegment, List.cons_append, List.takeWhile_append_dropWhile]
    · split <;> rfl

theorem chars_numberSegment_ne_nil {digits : List Char} (h : digits ≠ []) (rest : List Char) :
    (numberSegment digits rest).1.chars ≠ [] := by
  unfold numberSegment
  split
  · split <;> simp [Segment.chars, h]
  · simpa [Segment.chars] using h

theorem chars_firstSegment_ne_nil (c : Char) (cs : List Char) :
    (firstSegment c cs).1.chars ≠ [] := by
  unfold firstSegment
  split
  · simp [Segment.chars]
  · split
    · exact chars_numberSegment_ne_nil (by simp) _
    · split <;> simp [Segment.chars]

/-- What follows a segment is shorter than the line. -/
theorem length_firstSegment_lt (c : Char) (cs : List Char) :
    (firstSegment c cs).2.length < (c :: cs).length := by
  have hlen := congrArg List.length (chars_firstSegment c cs)
  have hpos := List.length_pos_iff.2 (chars_firstSegment_ne_nil c cs)
  rw [List.length_append] at hlen
  omega

/-! ### A line and a text -/

/-- The segments of a line, from left to right. -/
def scanLine : List Char → List Segment
  | [] => []
  | c :: cs => (firstSegment c cs).1 :: scanLine (firstSegment c cs).2
termination_by line => line.length
decreasing_by exact length_firstSegment_lt c cs

@[simp] theorem scanLine_nil : scanLine [] = [] := by rw [scanLine]

theorem scanLine_cons (c : Char) (cs : List Char) :
    scanLine (c :: cs) = (firstSegment c cs).1 :: scanLine (firstSegment c cs).2 := by
  rw [scanLine]

/-- The segments of a line join back to it. -/
theorem flatMap_chars_scanLine (line : List Char) :
    (scanLine line).flatMap Segment.chars = line := by
  fun_induction scanLine line with
  | case1 => rfl
  | case2 c cs ih => rw [List.flatMap_cons, ih, chars_firstSegment]

/-- The segments of a text, each with the number of its line. -/
def scan (source : List Char) : List (Nat × Segment) :=
  ((Text.lines source).zipIdx 1).flatMap fun (line, number) =>
    (scanLine line).map fun segment => (number, segment)

/-- The tokens among numbered segments. -/
def tokensOf (segments : List (Nat × Segment)) : List Token :=
  segments.filterMap fun (number, segment) => segment.token? number

/-- The tokens of a text, in the order they stand in it. -/
def tokenize (source : String) : List Token :=
  tokensOf (scan source.toList)

end ThreeAddress

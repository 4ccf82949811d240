import ThreeAddress.Text.Hidden

/-!
# Quoted characters and names

How a message shows a character or a name between quotation marks. Line breaks, tabs, the null
character, the backslash and the given quotation marks are written with a backslash, a hidden
character as its code point in lower-case hexadecimal between braces, and any other as itself.
-/

namespace ThreeAddress.Text

/-- A character named by its code point: a backslash, the letter u and the number in braces. -/
def codePoint (c : Char) : List Char :=
  ['\\', 'u', '\x7b'] ++ Nat.toDigits 16 c.toNat ++ ['\x7d']

/-- How a character is written between quotation marks, of which `marks` get a backslash. -/
def escape (marks : List Char) (c : Char) : List Char :=
  if c = '\x00' then ['\\', '0']
  else if c = '\t' then ['\\', 't']
  else if c = '\r' then ['\\', 'r']
  else if c = '\n' then ['\\', 'n']
  else if c = '\\' ∨ c ∈ marks then ['\\', c]
  else if isHidden c then codePoint c
  else [c]

/-- A character between single quotation marks; a double one inside stays as it is. -/
def quotedChar (c : Char) : String :=
  String.ofList ('\x27' :: escape ['\x27'] c ++ ['\x27'])

/-- A name between double quotation marks; a single one inside stays as it is. -/
def quotedName (s : String) : String :=
  String.ofList ('\x22' :: s.toList.flatMap (escape ['\x22']) ++ ['\x22'])

end ThreeAddress.Text

import QueryStats.Json.Basic
import QueryStats.Number.Shortest

/-!
# JSON text

A value is printed over several lines: each item of a list and each member of an object has a line
of its own, indented by two blanks more than the brackets around it.  An empty list or object stays
on one line.  In a string, quotes, backslashes and control characters are escaped, and all other
characters stand for themselves.
-/

namespace QueryStats.Json

/-- The text of a binary64 number. -/
def realText (negative : Bool) (units : Nat) : List Char :=
  if negative then '-' :: Binary64.text units else Binary64.text units

/-- A hexadecimal digit, in lower case. -/
def hexDigit (n : Nat) : Char := if n < 10 then Char.ofNat (48 + n) else Char.ofNat (87 + n)

/-- How a character is written in a string. -/
def escapeChar (c : Char) : List Char :=
  if c = '\x22' then ['\\', '\x22']
  else if c = '\\' then ['\\', '\\']
  else if c = '\x08' then ['\\', 'b']
  else if c = '\x0c' then ['\\', 'f']
  else if c = '\n' then ['\\', 'n']
  else if c = '\r' then ['\\', 'r']
  else if c = '\t' then ['\\', 't']
  else if c.toNat < 0x20 then
    ['\\', 'u', '0', '0', hexDigit (c.toNat / 16), hexDigit (c.toNat % 16)]
  else [c]

def quote (s : String) : List Char := '\x22' :: s.toList.flatMap escapeChar ++ ['\x22']

/-- A new line that begins with an indentation. -/
def newline (depth : Nat) : List Char := '\n' :: List.replicate (2 * depth) ' '

mutual

/-- The text of a value that stands so many levels deep. -/
def prettyAt (depth : Nat) : Json → List Char
  | null => "null".toList
  | bool b => (toString b).toList
  | integer n => (toString n).toList
  | real negative units => realText negative units
  | string s => quote s
  | array [] => ['[', ']']
  | array (x :: xs) =>
    '[' :: newline (depth + 1) ++ prettyAt (depth + 1) x ++ prettyItems (depth + 1) xs ++
      newline depth ++ [']']
  | object [] => ['\x7b', '\x7d']
  | object (m :: ms) =>
    '\x7b' :: newline (depth + 1) ++ prettyMember (depth + 1) m ++ prettyMembers (depth + 1) ms ++
      newline depth ++ ['\x7d']

/-- The text of the items of a list after the first one. -/
def prettyItems (depth : Nat) : List Json → List Char
  | [] => []
  | x :: xs => ',' :: newline depth ++ prettyAt depth x ++ prettyItems depth xs

/-- The text of a member of an object. -/
def prettyMember (depth : Nat) : String × Json → List Char
  | (key, value) => quote key ++ [':', ' '] ++ prettyAt depth value

/-- The text of the members of an object after the first one. -/
def prettyMembers (depth : Nat) : List (String × Json) → List Char
  | [] => []
  | m :: ms => ',' :: newline depth ++ prettyMember depth m ++ prettyMembers depth ms

end

def pretty (j : Json) : String := String.ofList (prettyAt 0 j)

end QueryStats.Json

import FlowPlan.Json.Number

namespace FlowPlan

/-!
Writing JSON text, either compact or laid out over lines.

Only the quote, the backslash and the control characters below U+0020 are
escaped.  The layout puts every item and member on a line of its own, indented
by two spaces for each level; empty arrays and objects stay on one line.
-/

namespace Json

inductive Layout where
  | compact
  | pretty
  deriving DecidableEq, Repr

namespace Layout

def ofPretty (pretty : Bool) : Layout := if pretty then .pretty else .compact

/-- What stands before an item at this level of nesting. -/
def lineBreak : Layout -> Nat -> List Char
  | .compact, _ => []
  | .pretty, level => '\n' :: List.replicate (2 * level) ' '

/-- What stands between a name and its value. -/
def separator : Layout -> List Char
  | .compact => [':']
  | .pretty => [':', ' ']

end Layout

def escapeChar (char : Char) : List Char :=
  if char = '"' then ['\\', '"']
  else if char = '\\' then ['\\', '\\']
  else if char = '\x08' then ['\\', 'b']
  else if char = '\x0c' then ['\\', 'f']
  else if char = '\n' then ['\\', 'n']
  else if char = '\r' then ['\\', 'r']
  else if char = '\t' then ['\\', 't']
  else if char.toNat < 0x20 then
    ['\\', 'u', '0', '0', Nat.digitChar (char.toNat / 16), Nat.digitChar (char.toNat % 16)]
  else [char]

/-- A string in quotes.  One that stands for no text is written as the half of
a surrogate pair that it holds. -/
def stringChars : Option String -> List Char
  | some content => '"' :: content.toList.flatMap escapeChar ++ ['"']
  | none => ['"', '\\', 'u', 'd', '8', '0', '0', '"']

section Writing

variable (layout : Layout)

mutual

/-- Write a value that stands at this level of nesting. -/
def write (level : Nat) : Json -> List Char
  | .null => ['n', 'u', 'l', 'l']
  | .bool true => ['t', 'r', 'u', 'e']
  | .bool false => ['f', 'a', 'l', 's', 'e']
  | .number value => value.chars
  | .string content => stringChars content
  | .array [] => ['[', ']']
  | .array (item :: items) =>
      '[' :: layout.lineBreak (level + 1) ++ write (level + 1) item
        ++ writeItems (level + 1) items ++ layout.lineBreak level ++ [']']
  | .object [] => ['\x7b', '\x7d']
  | .object (member :: members) =>
      '\x7b' :: layout.lineBreak (level + 1) ++ writeMember (level + 1) member
        ++ writeMembers (level + 1) members ++ layout.lineBreak level ++ ['\x7d']

/-- Write further items of an array. -/
def writeItems (level : Nat) : List Json -> List Char
  | [] => []
  | item :: items =>
      ',' :: layout.lineBreak level ++ write level item ++ writeItems level items

def writeMember (level : Nat) : Option String × Json -> List Char
  | (name, value) => stringChars name ++ layout.separator ++ write level value

/-- Write further members of an object. -/
def writeMembers (level : Nat) : List (Option String × Json) -> List Char
  | [] => []
  | member :: members =>
      ',' :: layout.lineBreak level ++ writeMember level member ++ writeMembers level members

end

end Writing

def render (layout : Layout) (value : Json) : String := String.ofList (write layout 0 value)

end Json

end FlowPlan

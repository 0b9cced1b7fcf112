import FlowPlan.Toml.Scalar

namespace FlowPlan

/-!
Reading TOML documents.

Arrays and inline tables nest up to a limit.  Between their parts there may be
spaces, comments and line ends, and a comma may stand after the last part.
Every step of their readers takes a character or goes one level deeper after
one, so twice the length of the text bounds the steps that any document can
need.
-/

namespace Toml

/-- The most arrays and inline tables inside each other, and the most parts of
a key. -/
def deepest : Nat := 80

/-! ## Keys -/

def isBareKeyChar (char : Char) : Bool :=
  char.isAlphanum || char == '_' || char == '-'

/-- One part of a key, bare or quoted on one line. -/
def readKeyPart? (text : List Char) : Option (String × List Char) :=
  match text with
  | '"' :: rest => readBasic? (rest.length + 1) [] rest
  | '\'' :: rest => readLiteral? rest
  | text =>
      match text.takeWhile isBareKeyChar with
      | [] => none
      | key => some (String.ofList key, text.dropWhile isBareKeyChar)

/-- Parts of a key with points between them. -/
def readKeyParts? : Nat -> List Char -> Option (List String × List Char)
  | 0, _ => none
  | steps + 1, text => do
      let (part, rest) <- readKeyPart? text
      match dropSpaces rest with
      | '.' :: rest => do
          let (parts, rest) <- readKeyParts? steps (dropSpaces rest)
          some (part :: parts, rest)
      | rest => some ([part], rest)

/-- A key: the tables it leads through and a name in the last of them. -/
def readKey? (text : List Char) : Option (List String × List Char) :=
  (readKeyParts? (text.length + 1) text).filter (fun read => read.1.length ≤ deepest)

/-! ## Blank parts -/

/-- A comment, up to the end of its line. -/
def dropComment (text : List Char) : List Char :=
  match text with
  | '#' :: rest => rest.dropWhile isPlain
  | text => text

/-- Drop spaces, comments and line ends, where all of them may stand; at the
beginning the text may be inside a comment. -/
def dropGapFrom (comment : Bool) : List Char -> List Char
  | [] => []
  | '\n' :: rest => dropGapFrom false rest
  | '\x0d' :: '\n' :: rest => dropGapFrom false rest
  | char :: rest =>
      if comment then (if isPlain char then dropGapFrom true rest else char :: rest)
      else if isSpace char then dropGapFrom false rest
      else if char = '#' then dropGapFrom true rest
      else char :: rest

def dropGap (text : List Char) : List Char := dropGapFrom false text

/-- What is left of a line after an expression must be blank. -/
def finishLine? (text : List Char) : Option (List Char) :=
  match dropComment (dropSpaces text) with
  | [] => some []
  | rest => readLineEnd? rest

/-! ## Values -/

mutual

/-- Read a value that stands inside `level` arrays and inline tables. -/
def readValue? : Nat -> Nat -> List Char -> Option (TomlItem × List Char)
  | 0, _, _ => none
  | steps + 1, level, text =>
      match text with
      | '[' :: rest =>
          if level < deepest then
            (readItems? steps (level + 1) rest).map (fun read => (.list read.1, read.2))
          else none
      | '\x7b' :: rest =>
          if level < deepest then
            (readPairs? steps (level + 1) [] rest).map
              (fun read => (.table .inlined read.1, read.2))
          else none
      | text => readScalar? text

/-- The items of an array up to its closing bracket. -/
def readItems? : Nat -> Nat -> List Char -> Option (List TomlItem × List Char)
  | 0, _, _ => none
  | steps + 1, level, text =>
      match dropGap text with
      | ']' :: rest => some ([], rest)
      | text => do
          let (item, rest) <- readValue? steps level text
          match dropGap rest with
          | ',' :: rest => do
              let (items, rest) <- readItems? steps level rest
              some (item :: items, rest)
          | ']' :: rest => some ([item], rest)
          | _ => none

/-- The pairs of an inline table up to its closing brace. -/
def readPairs? : Nat -> Nat -> TomlEntries -> List Char -> Option (TomlEntries × List Char)
  | 0, _, _, _ => none
  | steps + 1, level, entries, text =>
      match dropGap text with
      | '\x7d' :: rest => some (entries, rest)
      | text => do
          let (path, rest) <- readKey? text
          let rest <- char? '=' (dropGap rest)
          let (item, rest) <- readValue? steps level (dropGap rest)
          let entries <- entries.assign? item path
          match dropGap rest with
          | ',' :: rest => readPairs? steps level entries rest
          | '\x7d' :: rest => some (entries, rest)
          | _ => none

end

/-! ## Documents -/

/-- Read one header or pair; the document so far and the path of the table
that pairs go to. -/
def readExpression? (entries : TomlEntries) (current : List String) (text : List Char) :
    Option (TomlEntries × List String × List Char) :=
  match text with
  | '[' :: '[' :: rest => do
      let (path, rest) <- readKey? (dropSpaces rest)
      let rest <- char? ']' rest
      let rest <- char? ']' rest
      let last <- path.getLast?
      let entries <- entries.within? (TomlEntries.openNext? last) path.dropLast
      some (entries, path, rest)
  | '[' :: rest => do
      let (path, rest) <- readKey? (dropSpaces rest)
      let rest <- char? ']' rest
      let last <- path.getLast?
      let entries <- entries.within? (TomlEntries.openTable? last) path.dropLast
      some (entries, path, rest)
  | text => do
      let (path, rest) <- readKey? text
      let rest <- char? '=' rest
      let (item, rest) <- readValue? (2 * text.length) 0 (dropSpaces rest)
      let entries <- entries.within? (TomlEntries.assign? item path) current
      some (entries, current, rest)

/-- Read the expressions that remain, each on a line of its own. -/
def readLines? : Nat -> TomlEntries -> List String -> List Char -> Option TomlEntries
  | 0, _, _, _ => none
  | steps + 1, entries, current, text =>
      match dropGap text with
      | [] => some entries
      | text => do
          let (entries, current, rest) <- readExpression? entries current text
          let rest <- finishLine? rest
          readLines? steps entries current rest

/-- A mark of the byte order at the front is no part of the document. -/
def unmarked : List Char -> List Char
  | '\ufeff' :: text => text
  | text => text

def parse? (text : String) : Option TomlEntries :=
  readLines? (text.length + 1) [] [] (unmarked text.toList)

end Toml

end FlowPlan
